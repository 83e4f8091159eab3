import RegionRules.Proofs.Bounds.Cells
import RegionRules.Region.Cursor

/-!
# What cursors list

A cursor moves by steps, some of which produce no block.  Read to its end in one state it gives a
list, `Cursor.toList`, and this module says which.  Asked for one block after another in that state
it answers with the same list, and with no block after the last (`Cursor.answers_replicate`).

A range is walked by an odometer with three wheels, `x` turning fastest, then `y`, then `z`.  A
wheel at its end is not advanced but set back, and the next one is looked at; so one turn never
overflows, whatever the range (`BlockRange.turns_next?`).  A turn goes to the next block in the
order of `BlockPos.Before` (`next?_eq_some`, `next?_eq_none`), and the list of a range follows by
induction on the distance to its end.  The other cursors list what operations on lists make of it:
a filter, an append, a list without repeats.

`Cursor.Lists` sums this up for sets of blocks: a cursor lists a set when it gives every block of
the set once and nothing else.
-/

set_option autoImplicit false

namespace RegionRules

/-! ## The order of a walk -/

/-- The first block comes before the second: compared by `z`, then `y`, then `x`. -/
def BlockPos.Before (p q : BlockPos) : Prop :=
  p.z < q.z ∨ p.z = q.z ∧ (p.y < q.y ∨ p.y = q.y ∧ p.x < q.x)

namespace BlockPos

variable {p q r : BlockPos}

lemma before_iff : p.Before q ↔ p.z.toInt < q.z.toInt ∨ p.z.toInt = q.z.toInt ∧
    (p.y.toInt < q.y.toInt ∨ p.y.toInt = q.y.toInt ∧ p.x.toInt < q.x.toInt) := by
  simp only [Before, Int32.lt_iff_toInt_lt, Int32.toInt_inj]

lemma Before.trans (h : p.Before q) (h' : q.Before r) : p.Before r := by
  rw [before_iff] at *
  omega

lemma Before.ne (h : p.Before q) : p ≠ q := by
  rintro rfl
  rw [before_iff] at h
  omega

lemma eq_iff : p = q ↔ p.x.toInt = q.x.toInt ∧ p.y.toInt = q.y.toInt ∧ p.z.toInt = q.z.toInt := by
  obtain ⟨px, py, pz⟩ := p
  obtain ⟨qx, qy, qz⟩ := q
  simp only [mk.injEq, Int32.toInt_inj]

end BlockPos

namespace BlockRange

variable {r : BlockRange} {p q : BlockPos}

/-- What an odometer over the range shows after `p`.  One wheel is below its end and advances, by
one in the integers; the faster ones are at their ends and are set back, and the slower ones stay.
Nothing is shown after the last block. -/
inductive Turns (r : BlockRange) (p : BlockPos) : Option BlockPos → Prop
  | x {q : BlockPos} (below : p.x < r.hi.x) (hx : q.x.toInt = p.x.toInt + 1) (hy : q.y = p.y)
      (hz : q.z = p.z) : Turns r p (some q)
  | y {q : BlockPos} (x_full : p.x = r.hi.x) (below : p.y < r.hi.y) (hx : q.x = r.lo.x)
      (hy : q.y.toInt = p.y.toInt + 1) (hz : q.z = p.z) : Turns r p (some q)
  | z {q : BlockPos} (x_full : p.x = r.hi.x) (y_full : p.y = r.hi.y) (below : p.z < r.hi.z)
      (hx : q.x = r.lo.x) (hy : q.y = r.lo.y) (hz : q.z.toInt = p.z.toInt + 1) :
      Turns r p (some q)
  | last (h : p = r.hi) : Turns r p none

/-- **Within its range an odometer turns without overflow.** -/
lemma turns_next? (hp : r.Contains p) : r.Turns p (r.next? p) := by
  -- A wheel that is not below its end is at its end.
  have hfull (i : Axis) (h : ¬ p.coord i < r.hi.coord i) : p.coord i = r.hi.coord i :=
    Int32.le_antisymm (hp i).2 (Int32.not_lt.1 h)
  unfold next?
  split_ifs with hx hy hz
  · exact .x hx (toInt_add_one_of_lt hx) rfl rfl
  · exact .y (hfull .x hx) hy rfl (toInt_add_one_of_lt hy) rfl
  · exact .z (hfull .x hx) (hfull .y hy) hz rfl rfl (toInt_add_one_of_lt hz)
  · exact .last (BlockPos.ext_coord (Axis.forall_iff.2 ⟨hfull .x hx, hfull .y hy, hfull .z hz⟩))

/-- The next block of a range is the one that comes right after. -/
lemma next?_eq_some (hp : r.Contains p) (h : r.next? p = some q) :
    r.Contains q ∧ p.Before q ∧ ∀ b, r.Contains b → p.Before b → b = q ∨ q.Before b := by
  have hlo : r.lo.x.toInt ≤ r.hi.x.toInt ∧ r.lo.y.toInt ≤ r.hi.y.toInt :=
    ⟨Int32.le_iff_toInt_le.1 r.le_x, Int32.le_iff_toInt_le.1 r.le_y⟩
  have hturns := turns_next? hp
  rw [h] at hturns
  simp only [contains_iff, BlockPos.before_iff, BlockPos.eq_iff] at *
  cases hturns with
  | x below hx hy hz =>
    rw [Int32.lt_iff_toInt_lt] at below
    rw [hy, hz]
    refine ⟨?_, ?_, fun b hb hpb => ?_⟩ <;> omega
  | y x_full below hx hy hz =>
    rw [Int32.lt_iff_toInt_lt] at below
    rw [x_full] at hp ⊢
    rw [hx, hz]
    refine ⟨?_, ?_, fun b hb hpb => ?_⟩ <;> omega
  | z x_full y_full below hx hy hz =>
    rw [Int32.lt_iff_toInt_lt] at below
    rw [x_full, y_full] at hp ⊢
    rw [hx, hy]
    refine ⟨?_, ?_, fun b hb hpb => ?_⟩ <;> omega

lemma next?_eq_none (hp : r.Contains p) (h : r.next? p = none) {b : BlockPos}
    (hb : r.Contains b) : ¬ p.Before b := by
  have hturns := turns_next? hp
  rw [h] at hturns
  cases hturns with
  | last hlast =>
    subst hlast
    rw [contains_iff] at hb
    rw [BlockPos.before_iff]
    omega

lemma eq_or_before_of_contains (hp : r.Contains p) : p = r.lo ∨ r.lo.Before p := by
  rw [contains_iff] at hp
  rw [BlockPos.eq_iff, BlockPos.before_iff]
  omega

end BlockRange

namespace Cursor

variable {σ : Type} {s : σ} {c rest : Cursor σ} {block : BlockPos}

/-! ## One step of a list -/

lemma toList_of_done (h : c.step s = .done) : c.toList s = [] := by
  rw [toList]
  split <;> simp_all

lemma toList_of_skip (h : c.step s = .skip rest) : c.toList s = rest.toList s := by
  rw [toList]
  split <;> simp_all

lemma toList_of_yield (h : c.step s = .yield block rest) :
    c.toList s = block :: rest.toList s := by
  rw [toList]
  split <;> simp_all

lemma toList_nil (s : σ) : (nil : Cursor σ).toList s = [] := toList_of_done rfl

/-! ## Calls for the next block -/

lemma next?_of_done (h : c.step s = .done) : c.next? s = none := by
  rw [next?]
  split <;> simp_all

lemma next?_of_skip (h : c.step s = .skip rest) : c.next? s = rest.next? s := by
  rw [next?]
  split <;> simp_all

lemma next?_of_yield (h : c.step s = .yield block rest) : c.next? s = some (block, rest) := by
  rw [next?]
  split <;> simp_all

/-- The list of a cursor starts with the next block. -/
lemma toList_eq_next? (s : σ) (c : Cursor σ) :
    c.toList s = match c.next? s with
      | none => []
      | some (block, rest) => block :: rest.toList s := by
  induction c using toList.induct s with
  | case1 c h => rw [toList_of_done h, next?_of_done h]
  | case2 c rest h ih => rw [toList_of_skip h, next?_of_skip h, ih]
  | case3 c block rest h ih => rw [toList_of_yield h, next?_of_yield h]

/-- What a cursor answers to calls for the next block, each in a state of its own.  After the last
block there is none. -/
def answers : List σ → Cursor σ → List (Option BlockPos)
  | [], _ => []
  | t :: ts, c =>
    match c.next? t with
    | none => none :: answers ts .nil
    | some (block, rest) => some block :: answers ts rest

/-- **A cursor answers with the blocks of its list in one state,** and with none after the last, if
the states in which it is asked make no difference to it nor to the cursors that it leaves. -/
theorem answers_eq_of_forall {P : Cursor σ → Prop} {states : List σ} (hnil : P .nil)
    (h : ∀ c, P c → ∀ t ∈ states, c.next? s = c.next? t ∧
      ∀ block rest, c.next? s = some (block, rest) → P rest) (hc : P c) :
    c.answers states = ((c.toList s).map some).takeD states.length none := by
  induction states generalizing c with
  | nil => rfl
  | cons t ts ih =>
    have hts : ∀ c, P c → ∀ t ∈ ts, c.next? s = c.next? t ∧
        ∀ block rest, c.next? s = some (block, rest) → P rest :=
      fun c hc t ht => h c hc t (List.mem_cons_of_mem _ ht)
    obtain ⟨hsame, hrest⟩ := h c hc t List.mem_cons_self
    rw [answers, toList_eq_next?, ← hsame, List.length_cons]
    cases hnext : c.next? s with
    | none =>
      dsimp only
      rw [ih hts hnil, toList_nil]
      rfl
    | some found =>
      dsimp only
      rw [ih hts (hrest _ _ hnext)]
      rfl

/-- The list of a cursor is what it answers while the state stays. -/
lemma answers_replicate (c : Cursor σ) (s : σ) (n : ℕ) :
    c.answers (List.replicate n s) = ((c.toList s).map some).takeD n none := by
  have hsame : ∀ c : Cursor σ, True → ∀ t ∈ List.replicate n s, c.next? s = c.next? t ∧
      ∀ block rest, c.next? s = some (block, rest) → True := by
    intro c _ t ht
    rw [List.eq_of_mem_replicate ht]
    exact ⟨rfl, fun _ _ _ => trivial⟩
  rw [answers_eq_of_forall trivial hsame trivial, List.length_replicate]

/-! ## Lists of the cursors -/

lemma toList_range (s : σ) (r : BlockRange) (p : BlockPos) :
    (range r p : Cursor σ).toList s = p :: (rangeFrom r (r.next? p) : Cursor σ).toList s :=
  toList_of_yield rfl

/-- A range lists the blocks from its place on, each before the next. -/
theorem toList_range_spec (s : σ) {r : BlockRange} {p : BlockPos} (hp : r.Contains p) :
    ((range r p : Cursor σ).toList s).Pairwise BlockPos.Before ∧
      ∀ b, b ∈ (range r p : Cursor σ).toList s ↔ r.Contains b ∧ (b = p ∨ p.Before b) := by
  induction hn : r.distance p using Nat.strong_induction_on generalizing p with
  | _ n ih =>
    rw [toList_range]
    cases hnext : r.next? p with
    | none =>
      rw [rangeFrom, toList_nil]
      refine ⟨List.pairwise_singleton _ _, fun b => ?_⟩
      rw [List.mem_singleton]
      constructor
      · rintro rfl
        exact ⟨hp, .inl rfl⟩
      · rintro ⟨hb, rfl | hpb⟩
        · rfl
        · exact absurd hpb (BlockRange.next?_eq_none hp hnext hb)
    | some q =>
      obtain ⟨hq, hpq, hnearest⟩ := BlockRange.next?_eq_some hp hnext
      obtain ⟨hsorted, hmem⟩ := ih _ (hn ▸ BlockRange.distance_next? hnext) hq rfl
      rw [rangeFrom]
      refine ⟨List.pairwise_cons.2 ⟨fun b hb => ?_, hsorted⟩, fun b => ?_⟩
      · rcases ((hmem b).1 hb).2 with rfl | hqb
        · exact hpq
        · exact hpq.trans hqb
      · rw [List.mem_cons, hmem b]
        constructor
        · rintro (rfl | ⟨hb, rfl | hqb⟩)
          · exact ⟨hp, .inl rfl⟩
          · exact ⟨hb, .inr hpq⟩
          · exact ⟨hb, .inr (hpq.trans hqb)⟩
        · rintro ⟨hb, rfl | hpb⟩
          · exact .inl rfl
          · exact .inr ⟨hb, hnearest b hb hpb⟩

/-- A scan lists the blocks of the range that the region contains. -/
lemma toList_scan (s : σ) (region : Region σ) (r : BlockRange) (p : BlockPos) :
    (scan region r p).toList s =
      ((range r p : Cursor σ).toList s).filter (region.containsBlock s) := by
  induction hn : r.distance p using Nat.strong_induction_on generalizing p with
  | _ n ih =>
    have hrest : (scanFrom region r (r.next? p)).toList s =
        ((rangeFrom r (r.next? p) : Cursor σ).toList s).filter (region.containsBlock s) := by
      cases hnext : r.next? p with
      | none => rw [scanFrom, rangeFrom, toList_nil, List.filter_nil]
      | some q => exact ih _ (hn ▸ BlockRange.distance_next? hnext) q rfl
    rw [toList_range, List.filter_cons]
    split_ifs with hcontains
    · rw [← hrest]
      exact toList_of_yield (by rw [step, hcontains]; rfl)
    · rw [← hrest]
      exact toList_of_skip (by rw [step, if_neg hcontains])

lemma toList_append (s : σ) (first second : Cursor σ) :
    (append first second).toList s = first.toList s ++ second.toList s := by
  induction first using toList.induct s with
  | case1 first h =>
    rw [toList_of_done h, List.nil_append]
    exact toList_of_skip (by rw [step, h])
  | case2 first rest h ih =>
    rw [toList_of_skip h, ← ih]
    exact toList_of_skip (by rw [step, h])
  | case3 first block rest h ih =>
    rw [toList_of_yield h, List.cons_append, ← ih]
    exact toList_of_yield (by rw [step, h])

lemma toList_pinned (s held : σ) (c : Cursor σ) : (pinned held c).toList s = c.toList held := by
  induction c using toList.induct held with
  | case1 c h =>
    rw [toList_of_done h]
    exact toList_of_done (by rw [step, h])
  | case2 c rest h ih =>
    rw [toList_of_skip h, ← ih]
    exact toList_of_skip (by rw [step, h])
  | case3 c block rest h ih =>
    rw [toList_of_yield h, ← ih]
    exact toList_of_yield (by rw [step, h])

/-- Dropping repeats keeps the blocks that were not seen before, each once. -/
lemma toList_distinct_spec (s : σ) (seen : Std.HashSet BlockPos) (c : Cursor σ) :
    ((distinct seen c).toList s).Nodup ∧
      ∀ b, b ∈ (distinct seen c).toList s ↔ b ∈ c.toList s ∧ b ∉ seen := by
  induction c using toList.induct s generalizing seen with
  | case1 c h =>
    rw [toList_of_done h, toList_of_done (show (distinct seen c).step s = _ by rw [step, h])]
    simp
  | case2 c rest h ih =>
    rw [toList_of_skip h, toList_of_skip (show (distinct seen c).step s = _ by rw [step, h])]
    exact ih seen
  | case3 c block rest h ih =>
    rw [toList_of_yield h]
    by_cases hseen : block ∈ seen
    · obtain ⟨hnodup, hmem⟩ := ih seen
      have hstep : (distinct seen c).step s = .skip (.distinct seen rest) := by
        rw [step, h]
        exact if_pos hseen
      rw [toList_of_skip hstep]
      refine ⟨hnodup, fun b => ?_⟩
      rw [hmem b, List.mem_cons]
      constructor
      · rintro ⟨hb, hfresh⟩
        exact ⟨.inr hb, hfresh⟩
      · rintro ⟨rfl | hb, hfresh⟩
        · exact absurd hseen hfresh
        · exact ⟨hb, hfresh⟩
    · obtain ⟨hnodup, hmem⟩ := ih (seen.insert block)
      have hstep : (distinct seen c).step s =
          .yield block (.distinct (seen.insert block) rest) := by
        rw [step, h]
        exact if_neg hseen
      rw [toList_of_yield hstep]
      have hmem' (b : BlockPos) : b ∈ (distinct (seen.insert block) rest).toList s ↔
          b ∈ rest.toList s ∧ b ≠ block ∧ b ∉ seen := by
        rw [hmem b, Std.HashSet.mem_insert, beq_iff_eq, not_or, ne_comm]
      refine ⟨List.nodup_cons.2 ⟨fun hb => ((hmem' block).1 hb).2.1 rfl, hnodup⟩, fun b => ?_⟩
      rw [List.mem_cons, List.mem_cons, hmem' b]
      by_cases hb : b = block
      · subst hb
        simp [hseen]
      · simp [hb]

/-! ## Sets of blocks -/

/-- Read in the state, the cursor gives every block of the set once and nothing else. -/
structure Lists (s : σ) (c : Cursor σ) (P : BlockPos → Prop) : Prop where
  nodup : (c.toList s).Nodup
  mem_iff : ∀ b, b ∈ c.toList s ↔ P b

namespace Lists

variable {P Q : BlockPos → Prop} {held : σ} {c' : Cursor σ}

lemma congr (h : c.Lists s P) (hPQ : ∀ b, P b ↔ Q b) : c.Lists s Q :=
  ⟨h.nodup, fun b => (h.mem_iff b).trans (hPQ b)⟩

lemma nil (s : σ) : (Cursor.nil : Cursor σ).Lists s (fun _ => False) := by
  constructor <;> simp [toList_nil]

/-- **A range lists its blocks.** -/
lemma range (s : σ) (r : BlockRange) : (Cursor.range r r.lo : Cursor σ).Lists s r.Contains := by
  obtain ⟨hsorted, hmem⟩ := toList_range_spec s r.contains_lo
  refine ⟨hsorted.imp fun h => h.ne, fun b => ?_⟩
  rw [hmem b, and_iff_left_iff_imp]
  exact BlockRange.eq_or_before_of_contains

lemma scan (s : σ) (region : Region σ) (r : BlockRange) :
    (Cursor.scan region r r.lo).Lists s
      (fun b => r.Contains b ∧ region.containsBlock s b = true) := by
  have hrange := range s r
  constructor
  · rw [toList_scan]
    exact hrange.nodup.filter _
  · intro b
    rw [toList_scan, List.mem_filter, hrange.mem_iff b]

lemma pinned (h : c.Lists held P) : (Cursor.pinned held c).Lists s P := by
  constructor
  · rw [toList_pinned]
    exact h.nodup
  · intro b
    rw [toList_pinned, h.mem_iff b]

/-- A cursor whose repeats are dropped lists a set as soon as it gives just its blocks. -/
lemma distinct (h : ∀ b, b ∈ c.toList s ↔ P b) : (Cursor.distinct ∅ c).Lists s P := by
  obtain ⟨hnodup, hmem⟩ := toList_distinct_spec s ∅ c
  refine ⟨hnodup, fun b => ?_⟩
  rw [hmem b, h b]
  simp

end Lists

end Cursor
end RegionRules
