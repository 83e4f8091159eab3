import RegionRules.Proofs.Region.Steady

/-!
# What is read off a cursor

Two cursors may take different steps and still answer alike, whatever states they are asked in.
What can be told from outside is the *reading* of a cursor: all that it answers, to all lists of
calls.  Two readings are the same as soon as the cursors are related in a way that one block after
the other keeps up (`Cursor.reading_eq_of_matches`).

The reading of a compound cursor depends on the readings of its parts alone (`reading_append`,
`reading_distinct`, `reading_pinned`), and the reading of a scan on which blocks its region contains
(`reading_scanFrom`).
-/

set_option autoImplicit false

namespace RegionRules

variable {σ : Type}

namespace Cursor

/-- All that a cursor answers to calls for the next block, each in a state of its own. -/
def reading (c : Cursor σ) : List σ → List (Option BlockPos) := fun states => c.answers states

variable {s t : σ} {c c' first first' second second' : Cursor σ}

/-! ## One block after the other -/

/-- In every state both cursors are at their end, or they give the same block and are related
again after it. -/
def Matches (R : Cursor σ → Cursor σ → Prop) (c c' : Cursor σ) : Prop :=
  ∀ t, (c.next? t = none ∧ c'.next? t = none) ∨
    ∃ block rest rest', c.next? t = some (block, rest) ∧ c'.next? t = some (block, rest') ∧
      R rest rest'

/-- **Cursors have the same reading if a relation between them is kept up block by block.** -/
theorem reading_eq_of_matches {R : Cursor σ → Cursor σ → Prop}
    (hR : ∀ c c', R c c' → Matches R c c') (h : R c c') : c.reading = c'.reading := by
  funext states
  change c.answers states = c'.answers states
  induction states generalizing c c' with
  | nil => rfl
  | cons t ts ih =>
    rw [answers, answers]
    obtain ⟨hnone, hnone'⟩ | ⟨block, rest, rest', hsome, hsome', hrest⟩ := hR c c' h t
    · rw [hnone, hnone']
    · rw [hsome, hsome']
      exact congrArg (some block :: ·) (ih hrest)

/-- Cursors with the same reading are related so, by just that. -/
lemma matches_of_reading_eq (h : c.reading = c'.reading) :
    Matches (fun c c' => c.reading = c'.reading) c c' := by
  intro t
  have hanswers (ts : List σ) : c.answers (t :: ts) = c'.answers (t :: ts) := congrFun h (t :: ts)
  simp only [answers] at hanswers
  cases hnext : c.next? t with
  | none =>
    cases hnext' : c'.next? t with
    | none => exact .inl ⟨rfl, rfl⟩
    | some found' =>
      have := hanswers []
      simp [hnext, hnext'] at this
  | some found =>
    cases hnext' : c'.next? t with
    | none =>
      have := hanswers []
      simp [hnext, hnext'] at this
    | some found' =>
      obtain ⟨block, rest⟩ := found
      obtain ⟨block', rest'⟩ := found'
      simp only [hnext, hnext', List.cons.injEq, Option.some_inj] at hanswers
      obtain rfl := (hanswers []).1
      exact .inr ⟨block, rest, rest', rfl, rfl, funext fun ts => (hanswers ts).2⟩

/-! ## The next block of compound cursors -/

lemma next?_append (t : σ) (first second : Cursor σ) :
    (append first second).next? t = match first.next? t with
      | none => second.next? t
      | some (block, rest) => some (block, .append rest second) := by
  induction first using toList.induct t with
  | case1 first h =>
    rw [next?_of_done h]
    exact next?_of_skip (by rw [step, h])
  | case2 first rest h ih =>
    rw [next?_of_skip h, ← ih]
    exact next?_of_skip (by rw [step, h])
  | case3 first block rest h ih =>
    rw [next?_of_yield h]
    exact next?_of_yield (by rw [step, h])

lemma next?_pinned (t held : σ) (c : Cursor σ) :
    (pinned held c).next? t = (c.next? held).map fun found => (found.1, .pinned held found.2) := by
  induction c using toList.induct held with
  | case1 c h =>
    rw [next?_of_done h]
    exact next?_of_done (by rw [step, h])
  | case2 c rest h ih =>
    rw [next?_of_skip h, ← ih]
    exact next?_of_skip (by rw [step, h])
  | case3 c block rest h ih =>
    rw [next?_of_yield h]
    exact next?_of_yield (by rw [step, h])

lemma next?_distinct (t : σ) (seen : Std.HashSet BlockPos) (c : Cursor σ) :
    (distinct seen c).next? t = match c.next? t with
      | none => none
      | some (block, rest) =>
        if seen.contains block then (distinct seen rest).next? t
        else some (block, .distinct (seen.insert block) rest) := by
  induction c using toList.induct t with
  | case1 c h =>
    rw [next?_of_done h]
    exact next?_of_done (by rw [step, h])
  | case2 c rest h ih =>
    rw [next?_of_skip h, ← ih]
    exact next?_of_skip (by rw [step, h])
  | case3 c block rest h ih =>
    rw [next?_of_yield h]
    dsimp only
    split_ifs with hseen
    · exact next?_of_skip (by rw [step, h]; exact if_pos hseen)
    · exact next?_of_yield (by rw [step, h]; exact if_neg hseen)

lemma next?_scan (t : σ) (region : Region σ) (blocks : BlockRange) (place : BlockPos) :
    (scan region blocks place).next? t =
      if region.containsBlock t place then some (place, scanFrom region blocks (blocks.next? place))
      else (scanFrom region blocks (blocks.next? place)).next? t := by
  split_ifs with hcontains
  · exact next?_of_yield (by rw [step, if_pos hcontains])
  · exact next?_of_skip (by rw [step, if_neg hcontains])

lemma size_next? {block : BlockPos} {rest : Cursor σ} (h : c.next? t = some (block, rest)) :
    rest.size < c.size := by
  induction c using toList.induct t with
  | case1 c hstep =>
    rw [next?_of_done hstep] at h
    cases h
  | case2 c left hstep ih =>
    rw [next?_of_skip hstep] at h
    exact (ih h).trans (size_step t c left (by rw [hstep]; rfl))
  | case3 c found left hstep ih =>
    rw [next?_of_yield hstep] at h
    cases h
    exact size_step t c rest (by rw [hstep]; rfl)

/-! ## Readings of compound cursors -/

theorem reading_append (hfirst : first.reading = first'.reading)
    (hsecond : second.reading = second'.reading) :
    (append first second).reading = (append first' second').reading := by
  -- Past the first cursors, the second ones are what is left.
  let R : Cursor σ → Cursor σ → Prop := fun c c' => c.reading = c'.reading ∨
    ∃ first first' second second' : Cursor σ, first.reading = first'.reading ∧
      second.reading = second'.reading ∧ c = .append first second ∧ c' = .append first' second'
  refine reading_eq_of_matches (R := R) (fun c c' h t => ?_)
    (.inr ⟨first, first', second, second', hfirst, hsecond, rfl, rfl⟩)
  have hlast {c c' : Cursor σ} (h : c.reading = c'.reading) : Matches R c c' := fun t =>
    (matches_of_reading_eq h t).imp_right fun ⟨block, rest, rest', hc, hc', hrest⟩ =>
      ⟨block, rest, rest', hc, hc', .inl hrest⟩
  obtain h | ⟨first, first', second, second', hfirst, hsecond, rfl, rfl⟩ := h
  · exact hlast h t
  rw [next?_append, next?_append]
  obtain ⟨hnone, hnone'⟩ | ⟨block, rest, rest', hsome, hsome', hrest⟩ :=
    matches_of_reading_eq hfirst t
  · rw [hnone, hnone']
    exact hlast hsecond t
  · rw [hsome, hsome']
    exact .inr ⟨block, _, _, rfl, rfl,
      .inr ⟨rest, rest', second, second', hrest, hsecond, rfl, rfl⟩⟩

theorem reading_pinned (held : σ) (h : c.reading = c'.reading) :
    (pinned held c).reading = (pinned held c').reading := by
  refine reading_eq_of_matches
    (R := fun p p' => ∃ c c' : Cursor σ, c.reading = c'.reading ∧ p = .pinned held c ∧
      p' = .pinned held c') ?_ ⟨c, c', h, rfl, rfl⟩
  rintro _ _ ⟨c, c', h, rfl, rfl⟩ t
  rw [next?_pinned, next?_pinned]
  obtain ⟨hnone, hnone'⟩ | ⟨block, rest, rest', hsome, hsome', hrest⟩ :=
    matches_of_reading_eq h held
  · rw [hnone, hnone']
    exact .inl ⟨rfl, rfl⟩
  · rw [hsome, hsome']
    exact .inr ⟨block, _, _, rfl, rfl, rest, rest', hrest, rfl, rfl⟩

theorem reading_distinct (seen : Std.HashSet BlockPos) (h : c.reading = c'.reading) :
    (distinct seen c).reading = (distinct seen c').reading := by
  refine reading_eq_of_matches
    (R := fun d d' => ∃ (seen : Std.HashSet BlockPos) (c c' : Cursor σ),
      c.reading = c'.reading ∧ d = .distinct seen c ∧ d' = .distinct seen c') ?_
    ⟨seen, c, c', h, rfl, rfl⟩
  rintro _ _ ⟨seen, c, c', h, rfl, rfl⟩ t
  -- A repeat is passed over, and what is left is smaller.
  induction hn : c.size using Nat.strong_induction_on generalizing c c' with
  | _ n ih =>
    rw [next?_distinct, next?_distinct]
    obtain ⟨hnone, hnone'⟩ | ⟨block, rest, rest', hsome, hsome', hrest⟩ :=
      matches_of_reading_eq h t
    · rw [hnone, hnone']
      exact .inl ⟨rfl, rfl⟩
    · rw [hsome, hsome']
      dsimp only
      split_ifs
      · exact ih _ (hn ▸ size_next? hsome) rest rest' hrest rfl
      · exact .inr ⟨block, _, _, rfl, rfl, _, rest, rest', hrest, rfl, rfl⟩

/-- The reading of a scan depends on its region only by the blocks that it contains. -/
theorem reading_scanFrom {region region' : Region σ}
    (h : ∀ t b, region.containsBlock t b = region'.containsBlock t b) (blocks : BlockRange)
    (place : Option BlockPos) :
    (scanFrom region blocks place).reading = (scanFrom region' blocks place).reading := by
  refine reading_eq_of_matches
    (R := fun c c' => ∃ place, c = scanFrom region blocks place ∧
      c' = scanFrom region' blocks place) ?_ ⟨place, rfl, rfl⟩
  rintro _ _ ⟨place, rfl, rfl⟩ t
  cases place with
  | none => exact .inl ⟨next?_of_done rfl, next?_of_done rfl⟩
  | some place =>
    induction hn : blocks.distance place using Nat.strong_induction_on generalizing place with
    | _ n ih =>
      rw [scanFrom, scanFrom, next?_scan, next?_scan, ← h t place]
      split_ifs
      · exact .inr ⟨place, _, _, rfl, rfl, _, rfl, rfl⟩
      · cases hnext : blocks.next? place with
        | none => exact .inl ⟨next?_of_done rfl, next?_of_done rfl⟩
        | some next => exact ih _ (hn ▸ BlockRange.distance_next? hnext) next rfl

/-! ## Readings of listings -/

/-- What is read off a listing: its error, or the reading of its cursor. -/
def readings (listing : Except BlockError (Cursor σ)) :
    Except BlockError (List σ → List (Option BlockPos)) := listing.map reading

variable {x y : Except BlockError (Cursor σ)}

lemma readings_eq_iff : readings x = readings y ↔
    (∃ e, x = .error e ∧ y = .error e) ∨
      ∃ c c', x = .ok c ∧ y = .ok c' ∧ c.reading = c'.reading := by
  cases x <;> cases y <;> simp [readings, Except.map, eq_comm]

lemma readings_map {f : Cursor σ → Cursor σ}
    (hf : ∀ c c', c.reading = c'.reading → (f c).reading = (f c').reading)
    (h : readings x = readings y) : readings (x.map f) = readings (y.map f) := by
  obtain ⟨e, rfl, rfl⟩ | ⟨c, c', rfl, rfl, hc⟩ := readings_eq_iff.1 h
  · rfl
  · exact congrArg Except.ok (hf c c' hc)

lemma readings_scanBounds {region region' : Region σ}
    (h : ∀ t b, region.containsBlock t b = region'.containsBlock t b) (b : Bounds) :
    readings (scanBounds region b) = readings (scanBounds region' b) := by
  unfold scanBounds
  cases b.blockRange with
  | error e => rfl
  | ok range =>
    cases range with
    | none => rfl
    | some blocks => exact congrArg Except.ok (reading_scanFrom h blocks (some blocks.lo))

end Cursor
end RegionRules
