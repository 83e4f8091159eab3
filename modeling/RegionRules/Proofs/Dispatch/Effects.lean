import RegionRules.Proofs.Dispatch.Walks
import RegionRules.Proofs.Rule.RuleSet
import RegionRules.Dispatch.Dispatcher

/-!
# What a player is asked to undergo

The requests of a trace, without the questions to filters between them.  A pass without reactions
makes none, so the requests of a move are those of its rules on effects: each rule in turn adds its
`contribution`, which depends on the state that the rules before it have left
(`requests_runEffects_cons`).

A contribution names only what the rule has.  Rules that share no kit and no velocity can therefore
be told apart by their requests (`forall_mem_requests_runEffects`).
-/

set_option autoImplicit false

namespace RegionRules

variable {σ : Type}

/-! ## Requests of a trace -/

namespace Entry

/-- The request of an entry, if it is one. -/
def request? : Entry σ → Option Request
  | .consulted .. => none
  | .requested request => some request

/-- The requests of a trace in order. -/
def requests (trace : List (Entry σ)) : List Request := trace.filterMap request?

lemma requests_append (trace trace' : List (Entry σ)) :
    requests (trace ++ trace') = requests trace ++ requests trace' :=
  List.filterMap_append

lemma requests_map_requested (rs : List Request) :
    requests (rs.map .requested : List (Entry σ)) = rs := by
  induction rs with
  | nil => rfl
  | cons r rs ih => exact congrArg (r :: ·) ih

lemma requests_eq_nil {trace : List (Entry σ)} (h : ∀ request, .requested request ∉ trace) :
    requests trace = [] := by
  rw [requests, List.filterMap_eq_nil_iff]
  intro entry hentry
  cases entry with
  | consulted rule query answer => rfl
  | requested request => exact absurd hentry (h request)

end Entry

namespace Outcome

@[simp] lemma trace_andThen (o : Outcome σ) (next : Event → σ → Outcome σ) :
    (o.andThen next).trace = o.trace ++ (next o.event o.world).trace := rfl

lemma unchanged_andThen (e : Event) (w : σ) (next : Event → σ → Outcome σ) :
    (unchanged e w).andThen next = next e w := rfl

lemma andThen_assoc (o : Outcome σ) (next next' : Event → σ → Outcome σ) :
    (o.andThen next).andThen next' = o.andThen fun e w => (next e w).andThen next' := by
  simp only [andThen, List.append_assoc]

end Outcome

/-! ## Entries of a pass -/

namespace Pass

variable {pass : Pass σ}

/-- **Every entry of a pass is a question that the pass selects, or part of a reaction.** -/
theorem forall_mem_trace_run {P : Entry σ → Prop}
    (hask : ∀ rule w query answer, pass.select rule w = some query →
      P (.consulted rule query answer))
    (hreact : ∀ rule e w, ∀ entry ∈ (pass.react rule e w).trace, P entry)
    (rules : List (Rule σ)) (e : Event) (w : σ) :
    ∀ entry ∈ (pass.run rules e w).trace, P entry := by
  induction rules generalizing e w with
  | nil => intro entry hentry; cases hentry
  | cons rule rules ih =>
    rcases pass.skips_or_asks rule w with hskip | ⟨filter, query, hfilter, hselect⟩
    · rw [run_skip rules e hskip]
      exact ih e w
    · have hasked := hask rule w query (filter.ask query w).1 hselect
      rw [run, hselect]
      simp only [Rule.decide_spec rule query e w hfilter]
      split_ifs with hdecided hhalts
      · intro entry hentry
        simp only [Outcome.trace_andThen, List.mem_append, List.mem_singleton] at hentry
        rcases hentry with rfl | hentry
        exacts [hasked, hreact _ _ _ _ hentry]
      · intro entry hentry
        simp only [Outcome.trace_andThen, List.mem_append, List.mem_singleton] at hentry
        rcases hentry with (rfl | hentry) | hentry
        exacts [hasked, hreact _ _ _ _ hentry, ih _ _ _ hentry]
      · intro entry hentry
        simp only [Outcome.trace_andThen, List.mem_append, List.mem_singleton] at hentry
        rcases hentry with rfl | hentry
        exacts [hasked, ih _ _ _ hentry]

/-- A pass without reactions makes no request. -/
lemma requests_run (hreact : pass.react = fun _ => .unchanged) (rules : List (Rule σ)) (e : Event)
    (w : σ) : Entry.requests (pass.run rules e w).trace = [] := by
  have hentries : ∀ entry ∈ (pass.run rules e w).trace, ∀ request, entry ≠ .requested request := by
    refine forall_mem_trace_run ?_ (fun rule e w entry hentry => ?_) rules e w
    · intro rule w query answer _ request h
      cases h
    · rw [hreact] at hentry
      cases hentry
  exact Entry.requests_eq_nil fun request h => hentries _ h request rfl

end Pass

namespace Dispatcher

/-- Rules on entry and exit ask nothing of the player. -/
lemma requests_checkEnterLeave (d : Dispatcher σ) (player : Option (Player σ))
    (origin : Option Vec3) (target : Vec3) (e : Event) (w : σ) :
    Entry.requests (d.checkEnterLeave player origin target e w).trace = [] := by
  unfold checkEnterLeave
  split
  · rfl
  · cases Player.active? player w with
    | none => rfl
    | some p =>
      dsimp only
      split
      · exact Pass.requests_run rfl _ _ _
      · rw [Outcome.trace_andThen, Entry.requests_append, Pass.requests_run rfl,
          Pass.requests_run rfl, List.append_nil]

/-! ## Rules on effects -/

section Effects

variable (p : Player σ) (move : CoarseMove) (query : Query)

/-- The move crosses the boundary of a rule that has something to give or to take back. -/
def fires (move : CoarseMove) (rule : Rule σ) (w : σ) : Bool :=
  rule.hasEffects && (rule.region.enters w (some move.origin) move.target ||
    rule.region.exits w (some move.origin) move.target)

/-- What a rule has for a player who crosses its boundary in a state. -/
def dues (rule : Rule σ) (w : σ) : List Request :=
  effects rule (rule.region.enters w (some move.origin) move.target)
    (rule.region.exits w (some move.origin) move.target) (p.canInteract w)

lemma effects_eq_nil {rule : Rule σ} {enters exits : Bool}
    (h : (rule.hasEffects && (enters || exits)) = false) (canInteract : Bool) :
    effects rule enters exits canInteract = [] := by
  rw [Bool.and_eq_false_iff, Bool.or_eq_false_iff, Rule.hasEffects, Bool.or_eq_false_iff,
    Option.isSome_eq_false_iff, Option.isSome_eq_false_iff, Option.isNone_iff_eq_none,
    Option.isNone_iff_eq_none] at h
  rcases h with ⟨hvelocity, hkit⟩ | ⟨rfl, rfl⟩
  · simp [effects, hvelocity, hkit]
  · simp [effects]

variable {rule : Rule σ} {w : σ}

lemma dues_of_not_fires (h : fires move rule w = false) : dues p move rule w = [] :=
  effects_eq_nil h _

lemma applyEffect_of_not_fires (e : Event) (h : fires move rule w = false) :
    applyEffect p move query rule e w = .unchanged e w :=
  if_neg (Bool.not_eq_true _ ▸ h)

lemma applyEffect_unasked (e : Event) (h : fires move rule w = true)
    (hunasked : p.canInteract w = false ∨ rule.filter = none) :
    applyEffect p move query rule e w = .request (some p) (dues p move rule w) e w := by
  have hnone : (if p.canInteract w = true then rule.filter else none) = none := by
    rcases hunasked with hcan | hfilter
    · rw [hcan, if_neg Bool.false_ne_true]
    · rw [hfilter, ite_self]
  refine (if_pos h).trans ?_
  rw [hnone]
  rfl

lemma applyEffect_asked (e : Event) {filter : Filter σ} {answer : Answer} {w₁ : σ}
    (h : fires move rule w = true) (hcan : p.canInteract w = true)
    (hfilter : rule.filter = some filter) (hask : filter.ask query w = (answer, w₁)) :
    applyEffect p move query rule e w =
      if answer = .deny then ⟨e, w₁, [.consulted rule query answer]⟩
      else Outcome.andThen ⟨e, w₁, [.consulted rule query answer]⟩
        (.request (some p) (dues p move rule w)) := by
  refine (if_pos h).trans ?_
  rw [if_pos hcan, hfilter]
  simp only [hask]
  rfl

/-- What a rule on effects asks of a player in a state: nothing if the player can interact and the
filter denies, else what is due. -/
def contribution (rule : Rule σ) (w : σ) : List Request :=
  if p.canInteract w && rule.filter.any fun filter => (filter.ask query w).1 == .deny then []
  else dues p move rule w

/-- **A rule on effects makes its contribution,** at once or after the filter was asked.  It is
asked only of a player who can interact. -/
theorem applyEffect_cases (rule : Rule σ) (e : Event) (w : σ) :
    applyEffect p move query rule e w =
        .request (some p) (contribution p move query rule w) e w ∨
      p.canInteract w = true ∧ ∃ filter, rule.filter = some filter ∧
        applyEffect p move query rule e w =
          Outcome.andThen ⟨e, (filter.ask query w).2,
            [.consulted rule query (filter.ask query w).1]⟩
            (.request (some p) (contribution p move query rule w)) := by
  cases hfires : fires move rule w with
  | false =>
    left
    rw [applyEffect_of_not_fires p move query e hfires, contribution,
      dues_of_not_fires p move hfires, ite_self]
    rfl
  | true =>
    by_cases hunasked : p.canInteract w = false ∨ rule.filter = none
    · have hgo : contribution p move query rule w = dues p move rule w := by
        rcases hunasked with h | h <;> simp [contribution, h]
      rw [applyEffect_unasked p move query e hfires hunasked, hgo]
      exact .inl rfl
    · rw [not_or, Bool.not_eq_false, ← ne_eq, Option.ne_none_iff_exists'] at hunasked
      obtain ⟨hcan, filter, hfilter⟩ := hunasked
      refine .inr ⟨hcan, filter, hfilter, ?_⟩
      rw [applyEffect_asked p move query e hfires hcan hfilter rfl]
      split_ifs with hdeny
      · have hnone : contribution p move query rule w = [] := by
          simp [contribution, hcan, hfilter, hdeny]
        rw [hnone]
        rfl
      · have hgo : contribution p move query rule w = dues p move rule w := by
          simp [contribution, hfilter, hdeny]
        rw [hgo]

lemma event_applyEffect (rule : Rule σ) (e : Event) (w : σ) :
    (applyEffect p move query rule e w).event = e := by
  rcases applyEffect_cases p move query rule e w with h | ⟨-, filter, -, h⟩
  · rw [h]
    rfl
  · rw [h]
    rfl

lemma requests_applyEffect (rule : Rule σ) (e : Event) (w : σ) :
    Entry.requests (applyEffect p move query rule e w).trace =
      contribution p move query rule w := by
  rcases applyEffect_cases p move query rule e w with h | ⟨-, filter, -, h⟩
  · rw [h]
    exact Entry.requests_map_requested _
  · rw [h, Outcome.trace_andThen, Entry.requests_append]
    exact Entry.requests_map_requested _

lemma event_runEffects (rules : List (Rule σ)) (e : Event) (w : σ) :
    (runEffects p move query rules e w).event = e := by
  induction rules generalizing e w with
  | nil => rfl
  | cons rule rules ih => exact (ih _ _).trans (event_applyEffect p move query rule e w)

lemma runEffects_append (rules rules' : List (Rule σ)) (e : Event) (w : σ) :
    runEffects p move query (rules ++ rules') e w =
      (runEffects p move query rules e w).andThen (runEffects p move query rules') := by
  induction rules generalizing e w with
  | nil => rfl
  | cons rule rules ih =>
    rw [List.cons_append, runEffects, runEffects, Outcome.andThen_assoc]
    exact congrArg _ (funext₂ ih)

/-- The contributions of rules follow one another. -/
lemma requests_runEffects_cons (rule : Rule σ) (rules : List (Rule σ)) (e : Event) (w : σ) :
    Entry.requests (runEffects p move query (rule :: rules) e w).trace =
      contribution p move query rule w ++
        Entry.requests (runEffects p move query rules e
          (applyEffect p move query rule e w).world).trace := by
  rw [runEffects, Outcome.trace_andThen, Entry.requests_append, requests_applyEffect,
    event_applyEffect]

/-! ## Whose request it is -/

/-- The request is for the velocity or the kit of a rule. -/
def Concerns (rule : Rule σ) : Request → Prop
  | .setVelocity velocity => rule.velocity = some velocity
  | .applyKit kit _ => rule.kit = some kit
  | .removeKit kit => rule.kit = some kit
  | .warn _ => False

lemma concerns_of_mem_contribution {rule : Rule σ} {w : σ} {request : Request}
    (h : request ∈ contribution p move query rule w) : Concerns rule request := by
  unfold contribution at h
  split_ifs at h
  · cases h
  · simp only [dues, effects, List.mem_append, List.mem_ite_nil_right, List.mem_map,
      Option.mem_toList] at h
    rcases h with ⟨-, velocity, hvelocity, rfl⟩ | ⟨-, ⟨-, kit, hkit, rfl⟩ | ⟨-, kit, hkit, rfl⟩⟩
    exacts [hvelocity, hkit, hkit]

/-- **A request concerns the rule that makes it.** -/
theorem forall_mem_requests_runEffects (rules : List (Rule σ)) (e : Event) (w : σ) :
    ∀ request ∈ Entry.requests (runEffects p move query rules e w).trace,
      ∃ rule ∈ rules, Concerns rule request := by
  induction rules generalizing e w with
  | nil => intro request h; cases h
  | cons rule rules ih =>
    intro request h
    rw [requests_runEffects_cons, List.mem_append] at h
    rcases h with h | h
    · exact ⟨rule, List.mem_cons_self, concerns_of_mem_contribution p move query h⟩
    · obtain ⟨other, hother, hconcerns⟩ := ih _ _ request h
      exact ⟨other, List.mem_cons_of_mem _ hother, hconcerns⟩

end Effects

end Dispatcher
end RegionRules
