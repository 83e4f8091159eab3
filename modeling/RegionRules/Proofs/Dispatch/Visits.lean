import RegionRules.Proofs.Dispatch.Regimes
import RegionRules.Proofs.Dispatch.Warnings

/-!
# Visits of a move

A move visits the rules on effects one after the other.  A visit records what one rule makes of the
move: the answer of its filter, if that was asked, the requests to the player, and the match before
and after.  `Visit.Follows` says what a visit has to be, given the match that the rule was reached
in.  That match is the one that the visits before have left (`Leads`): their filters and requests
may have made or unmade the region of a later rule.

Nothing else shows in the outcome of a move.  Its trace is that of the visits, so the player is
asked to undergo the contributions of the rules in order (`applyEffects_visits`).
-/

set_option autoImplicit false

namespace RegionRules

variable {σ : Type}

/-! ## Contributions -/

/-- The request is made on entry. -/
def Request.isEntry : Request → Bool
  | .setVelocity _ => true
  | .applyKit _ _ => true
  | _ => false

/-- The request is made on exit. -/
def Request.isExit : Request → Bool
  | .removeKit _ => true
  | _ => false

namespace Rule

variable (rule : Rule σ) (canInteract : Bool)

/-- What a player who enters gets: the velocity, and then the kit if the player can interact. -/
def onEntry : List Request :=
  rule.velocity.toList.map .setVelocity ++
    if canInteract then rule.kit.toList.map (.applyKit · false) else []

/-- What a player who exits gives back: a lent kit, if the player can interact. -/
def onExit : List Request :=
  if canInteract && rule.lendKit then rule.kit.toList.map .removeKit else []

lemma isExit_eq_false_of_mem_onEntry {request : Request} (h : request ∈ rule.onEntry canInteract) :
    request.isExit = false := by
  simp only [onEntry, List.mem_append, List.mem_ite_nil_right, List.mem_map] at h
  rcases h with ⟨velocity, -, rfl⟩ | ⟨-, kit, -, rfl⟩ <;> rfl

lemma isEntry_eq_false_of_mem_onExit {request : Request} (h : request ∈ rule.onExit canInteract) :
    request.isEntry = false := by
  simp only [onExit, List.mem_ite_nil_right, List.mem_map] at h
  obtain ⟨-, kit, -, rfl⟩ := h
  rfl

end Rule

/-! ## Visits -/

/-- What one rule makes of a move. -/
structure Visit (σ : Type) where
  rule : Rule σ
  before : σ
  /-- The answer of the rule's filter, if it was asked. -/
  answer : Option Answer
  requests : List Request
  after : σ

namespace Visit

variable (v : Visit σ) (p : Player σ) (move : CoarseMove) (query : Query)

/-- The rule has something to give or to take back, and the move starts and ends on different sides
of its region's boundary. -/
def crosses : Bool :=
  v.rule.hasEffects &&
    (v.rule.region.contains v.before move.origin != v.rule.region.contains v.before move.target)

/-- The filter that is asked: that of a rule whose boundary is crossed by a player who can
interact. -/
def asked : Option (Filter σ) :=
  if v.crosses move && p.canInteract v.before then v.rule.filter else none

/-- How a visit shows in a trace. -/
def trace : List (Entry σ) :=
  (v.answer.map (.consulted v.rule query)).toList ++ v.requests.map .requested

/-- The visit is what its rule makes of the move in the match before it.  The filter is asked at
most once, and before the requests. -/
structure Follows : Prop where
  answer_eq : v.answer = (v.asked p move).map fun filter => (filter.ask query v.before).1
  requests_eq : v.requests =
    if v.crosses move = false ∨ v.answer = some .deny then []
    else if v.rule.region.contains v.before move.target then
      v.rule.onEntry (p.canInteract v.before)
    else v.rule.onExit (p.canInteract v.before)
  after_eq : v.after = Player.after (some p) v.requests
    ((v.asked p move).elim v.before fun filter => (filter.ask query v.before).2)

namespace Follows

variable {v p move query}

/-- The filter of a rule that is crossed is asked just of players who can interact. -/
lemma isSome_answer_iff (h : v.Follows p move query) : v.answer.isSome = true ↔
    v.crosses move = true ∧ p.canInteract v.before = true ∧ v.rule.filter.isSome = true := by
  rw [h.answer_eq, Option.isSome_map, Visit.asked]
  split_ifs with hasked <;> rw [Bool.and_eq_true] at hasked
  · simp [hasked]
  · simpa using fun hcrosses hcan => absurd ⟨hcrosses, hcan⟩ hasked

/-- Whoever enters does not exit. -/
lemma not_entry_and_exit (h : v.Follows p move query) :
    ¬ ((∃ r ∈ v.requests, r.isEntry = true) ∧ ∃ r ∈ v.requests, r.isExit = true) := by
  rintro ⟨⟨r, hr, hentry⟩, ⟨r', hr', hexit⟩⟩
  rw [h.requests_eq] at hr hr'
  split_ifs at hr hr'
  · cases hr
  · rw [Rule.isExit_eq_false_of_mem_onEntry _ _ hr'] at hexit
    cases hexit
  · rw [Rule.isEntry_eq_false_of_mem_onExit _ _ hr] at hentry
    cases hentry

/-- A boundary with both ends of the move on one side is not noticed. -/
lemma of_same_side (h : v.Follows p move query)
    (hside : v.rule.region.contains v.before move.origin =
      v.rule.region.contains v.before move.target) :
    v.answer = none ∧ v.requests = [] ∧ v.after = v.before := by
  have hcrosses : v.crosses move = false := by simp [crosses, hside]
  have hasked : v.asked p move = none := by simp [asked, hcrosses]
  have hrequests : v.requests = [] := by rw [h.requests_eq, if_pos (.inl hcrosses)]
  refine ⟨by rw [h.answer_eq, hasked]; rfl, hrequests, ?_⟩
  rw [h.after_eq, hasked, hrequests]
  rfl

end Follows
end Visit

/-! ## Tours -/

/-- Each of the visits finds the match as the one before has left it. -/
def Leads : σ → List (Visit σ) → σ → Prop
  | w, [], w' => w' = w
  | w, v :: visits, w' => v.before = w ∧ Leads v.after visits w'

/-- A move visits the rules in order, once each, and its outcome is what the visits leave. -/
structure Tour (p : Player σ) (move : CoarseMove) (query : Query) (rules : List (Rule σ)) (w : σ)
    (visits : List (Visit σ)) (o : Outcome σ) : Prop where
  rules_eq : visits.map (·.rule) = rules
  follows : ∀ v ∈ visits, v.Follows p move query
  leads : Leads w visits o.world
  trace_eq : o.trace = visits.flatMap (·.trace query)

namespace Tour

variable {p : Player σ} {move : CoarseMove} {query : Query} {rules : List (Rule σ)} {w : σ}
  {visits : List (Visit σ)} {o : Outcome σ}

/-- The requests of a move are the contributions of the visits, one after the other. -/
lemma requests_eq (h : Tour p move query rules w visits o) :
    Entry.requests o.trace = visits.flatMap (·.requests) := by
  have hone (v : Visit σ) : Entry.requests (v.trace query) = v.requests := by
    rw [Visit.trace, Entry.requests_append, Entry.requests_map_requested]
    cases v.answer <;> rfl
  rw [h.trace_eq]
  clear h
  induction visits with
  | nil => rfl
  | cons v visits ih =>
    rw [List.flatMap_cons, Entry.requests_append, hone, ih, List.flatMap_cons]

end Tour

/-! ## Rules on effects -/

namespace Dispatcher

section Visits

variable (p : Player σ) (move : CoarseMove) (query : Query)

/-- A move is noticed by a rule with effects if its ends are on different sides. -/
lemma fires_eq (rule : Rule σ) (w : σ) : fires move rule w =
    (rule.hasEffects &&
      (rule.region.contains w move.origin != rule.region.contains w move.target)) := by
  have hsides : ∀ a b : Bool, (!a && b || a && !b) = (a != b) := by decide
  exact congrArg (rule.hasEffects && ·) (hsides _ _)

/-- What is due to a player who crosses the boundary goes by the side of the target. -/
lemma dues_of_fires {rule : Rule σ} {w : σ} (h : fires move rule w = true) :
    dues p move rule w =
      if rule.region.contains w move.target then rule.onEntry (p.canInteract w)
      else rule.onExit (p.canInteract w) := by
  rw [fires_eq, Bool.and_eq_true, bne_iff_ne] at h
  obtain ⟨-, hsides⟩ := h
  unfold dues
  cases htarget : rule.region.contains w move.target with
  | true =>
    have horigin : rule.region.contains w move.origin = false :=
      Bool.eq_false_of_not_eq_true (htarget ▸ hsides)
    have henters : rule.region.enters w (some move.origin) move.target = true := by
      simp [Region.enters, horigin, htarget]
    have hexits : rule.region.exits w (some move.origin) move.target = false := by
      simp [Region.exits, horigin]
    simp [effects, Rule.onEntry, henters, hexits]
  | false =>
    have horigin : rule.region.contains w move.origin = true :=
      Bool.eq_true_of_not_eq_false (htarget ▸ hsides)
    have henters : rule.region.enters w (some move.origin) move.target = false := by
      simp [Region.enters, horigin]
    have hexits : rule.region.exits w (some move.origin) move.target = true := by
      simp [Region.exits, horigin, htarget]
    cases p.canInteract w <;> simp [effects, Rule.onExit, henters, hexits]

section Visit

variable {rule : Rule σ} {w : σ} (e : Event)

lemma crosses_eq_fires (answer : Option Answer) (requests : List Request) (after : σ) :
    Visit.crosses ⟨rule, w, answer, requests, after⟩ move = fires move rule w :=
  (fires_eq move rule w).symm

/-- A rule that the move does not concern leaves all as it is. -/
lemma exists_visit_of_not_fires (h : fires move rule w = false) :
    ∃ v : Visit σ, v.rule = rule ∧ v.before = w ∧ v.Follows p move query ∧
      applyEffect p move query rule e w = ⟨e, v.after, v.trace query⟩ := by
  let v : Visit σ := ⟨rule, w, none, [], w⟩
  have hcrosses : v.crosses move = false := (crosses_eq_fires ..).trans h
  have hasked : v.asked p move = none := by rw [Visit.asked, hcrosses]; rfl
  refine ⟨v, rfl, rfl, ⟨?_, ?_, ?_⟩, applyEffect_of_not_fires p move query e h⟩
  · rw [hasked]
    rfl
  · rw [if_pos (.inl hcrosses)]
  · rw [hasked]
    rfl

/-- A rule without a filter, or that finds a player who cannot interact, asks nothing. -/
lemma exists_visit_unasked (h : fires move rule w = true)
    (hunasked : p.canInteract w = false ∨ rule.filter = none) :
    ∃ v : Visit σ, v.rule = rule ∧ v.before = w ∧ v.Follows p move query ∧
      applyEffect p move query rule e w = ⟨e, v.after, v.trace query⟩ := by
  let requests := dues p move rule w
  let v : Visit σ := ⟨rule, w, none, requests, Player.after (some p) requests w⟩
  have hcrosses : v.crosses move = true := (crosses_eq_fires ..).trans h
  have hasked : v.asked p move = none := by
    rcases hunasked with hcan | hfilter
    · simp [Visit.asked, v, hcan]
    · simp [Visit.asked, v, hfilter]
  refine ⟨v, rfl, rfl, ⟨?_, ?_, ?_⟩, ?_⟩
  · rw [hasked]
    rfl
  · rw [if_neg (by simp [hcrosses, v])]
    exact dues_of_fires p move h
  · rw [hasked]
    rfl
  · rw [applyEffect_unasked p move query e h hunasked, Outcome.request_eq]
    rfl

/-- A filter that is asked can only deny. -/
lemma exists_visit_asked {filter : Filter σ} (h : fires move rule w = true)
    (hcan : p.canInteract w = true) (hfilter : rule.filter = some filter) :
    ∃ v : Visit σ, v.rule = rule ∧ v.before = w ∧ v.Follows p move query ∧
      applyEffect p move query rule e w = ⟨e, v.after, v.trace query⟩ := by
  obtain ⟨answer, w₁, hask⟩ : ∃ answer w₁, filter.ask query w = (answer, w₁) := ⟨_, _, rfl⟩
  let requests := if answer = .deny then [] else dues p move rule w
  let v : Visit σ := ⟨rule, w, some answer, requests, Player.after (some p) requests w₁⟩
  have hbefore : v.before = w := rfl
  have hcrosses : v.crosses move = true := (crosses_eq_fires ..).trans h
  have hasked : v.asked p move = some filter := by
    rw [Visit.asked, hcrosses]
    exact (if_pos hcan).trans hfilter
  refine ⟨v, rfl, rfl, ⟨?_, ?_, ?_⟩, ?_⟩
  · rw [hasked, Option.map_some, hbefore, hask]
  · have hdeny : (v.crosses move = false ∨ v.answer = some .deny) ↔ answer = .deny := by
      simp [hcrosses, v]
    simp only [hdeny]
    exact congrArg (ite _ _) (dues_of_fires p move h)
  · rw [hasked, Option.elim_some, hbefore, hask]
  · rw [applyEffect_asked p move query e h hcan hfilter hask]
    by_cases hdeny : answer = .deny
    · simp [v, requests, hdeny, Visit.trace, Player.after]
    · simp [v, requests, hdeny, Visit.trace, Outcome.andThen, Outcome.request_eq, Player.told]

variable (rule w)

/-- A rule on effects makes one visit. -/
lemma exists_visit : ∃ v : Visit σ, v.rule = rule ∧ v.before = w ∧ v.Follows p move query ∧
    applyEffect p move query rule e w = ⟨e, v.after, v.trace query⟩ := by
  cases h : fires move rule w with
  | false => exact exists_visit_of_not_fires p move query e h
  | true =>
    by_cases hunasked : p.canInteract w = false ∨ rule.filter = none
    · exact exists_visit_unasked p move query e h hunasked
    · rw [not_or, Bool.not_eq_false, ← ne_eq, Option.ne_none_iff_exists'] at hunasked
      obtain ⟨hcan, filter, hfilter⟩ := hunasked
      exact exists_visit_asked p move query e h hcan hfilter

end Visit

/-- The visits of rules follow one another. -/
lemma exists_tour (rules : List (Rule σ)) (e : Event) (w : σ) :
    ∃ visits, Tour p move query rules w visits (runEffects p move query rules e w) := by
  induction rules generalizing w with
  | nil => exact ⟨[], rfl, List.forall_mem_nil _, rfl, rfl⟩
  | cons rule rules ih =>
    obtain ⟨v, hrule, hbefore, hfollows, happly⟩ := exists_visit p move query rule w e
    obtain ⟨visits, htour⟩ := ih v.after
    have hrun : runEffects p move query (rule :: rules) e w =
        Outcome.andThen ⟨e, v.after, v.trace query⟩ (runEffects p move query rules) := by
      rw [runEffects, happly]
    refine ⟨v :: visits, ?_, List.forall_mem_cons.2 ⟨hfollows, htour.follows⟩, ?_, ?_⟩
    · rw [List.map_cons, hrule, htour.rules_eq]
    · rw [hrun]
      exact ⟨hbefore, htour.leads⟩
    · rw [hrun, Outcome.trace_andThen, List.flatMap_cons, htour.trace_eq]

lemma applyEffects_eq_runEffects {d : Dispatcher σ} {rules : List (Rule σ)}
    (hrules : d.rules = .ofList rules) {e : Event} (he : e.isCancelled = false) (w : σ) :
    d.applyEffects (some p) move e w =
      runEffects p move { kind := e.kind, player := some (p.state w) }
        (rules.filter (·.scope = .effect)) e w := by
  rw [← RuleSet.ofScope_ofList, ← hrules]
  exact if_neg (he ▸ Bool.false_ne_true)

end Visits

/-- **A move has the effects of the rules that it crosses, in order.**  On a cancelled event, or
without a player, nothing happens.  Otherwise the move tours the rules on effects, and the requests
to the player are the contributions of the visits one after the other.  A filter is asked just where
a player who can interact crosses its rule, no visit both gives to a player who enters and takes
from one who exits, and a move on one side of a boundary has no effect there. -/
theorem applyEffects_visits (d : Dispatcher σ) (rules : List (Rule σ))
    (hrules : d.rules = .ofList rules) (player : Option (Player σ)) (move : CoarseMove) (e : Event)
    (w : σ) :
    let o := d.applyEffects player move e w
    (e.isCancelled = true ∨ player = none → o = .unchanged e w) ∧
      ∀ p, player = some p → e.isCancelled = false →
        let query : Query := { kind := e.kind, player := some (p.state w) }
        ∃ visits, Tour p move query (rules.filter (·.scope = .effect)) w visits o ∧
          o.event = e ∧
          Entry.requests o.trace = visits.flatMap (·.requests) ∧
          ∀ v ∈ visits,
            (v.answer.isSome = true ↔ v.crosses move = true ∧ p.canInteract v.before = true ∧
              v.rule.filter.isSome = true) ∧
            ¬ ((∃ r ∈ v.requests, r.isEntry = true) ∧ ∃ r ∈ v.requests, r.isExit = true) ∧
            (v.rule.region.contains v.before move.origin =
                v.rule.region.contains v.before move.target →
              v.answer = none ∧ v.requests = [] ∧ v.after = v.before) := by
  intro o
  constructor
  · rintro (hcancelled | rfl)
    · exact if_pos hcancelled
    · exact ite_self _
  · rintro p rfl he query
    have ho : o = runEffects p move query (rules.filter (·.scope = .effect)) e w :=
      applyEffects_eq_runEffects p move hrules he w
    obtain ⟨visits, htour⟩ :=
      exists_tour p move query (rules.filter (·.scope = .effect)) e w
    rw [← ho] at htour
    refine ⟨visits, htour, ?_, htour.requests_eq, fun v hv => ?_⟩
    · rw [ho]
      exact event_runEffects p move query _ e w
    · have hfollows := htour.follows v hv
      exact ⟨hfollows.isSome_answer_iff, hfollows.not_entry_and_exit, hfollows.of_same_side⟩

section Parade

/-- Rules on effects at a block.  The region of the second one is there once a filter was asked, the
third one's is left, the filter of the fourth one denies, and the last one's has no boundary. -/
def parade : List (Rule ℕ) :=
  [{ scope := .effect, region := .block ⟨0, 0, 0⟩, filter := some countingFilter,
      velocity := some (.splat .one), kit := some ⟨"armour"⟩ },
    { scope := .effect
      region := .dynamic fun asked => if asked = 0 then .empty else .block ⟨0, 0, 0⟩
      velocity := some (.splat .half) },
    { scope := .effect, region := .block ⟨3, 3, 3⟩, kit := some ⟨"boat"⟩, lendKit := true },
    { scope := .effect, region := .block ⟨0, 0, 0⟩, filter := some countingFilter,
      kit := some ⟨"sword"⟩ },
    { scope := .effect, region := .everywhere, filter := some countingFilter,
      velocity := some (.splat .one) }]

/-- From one block to another. -/
def marching : CoarseMove := ⟨(⟨3, 3, 3⟩ : BlockPos).center, (⟨0, 0, 0⟩ : BlockPos).center⟩

/-- The filters of the first and fourth rules are asked, and the first question makes the region
that the second rule needs. -/
theorem parade_visits :
    let d : Dispatcher ℕ := ⟨.ofList parade, true, true, none⟩
    let e : Event := .coarseMove marching {}
    let o := d.applyEffects (some visitor) marching e 0
    let query : Query := { kind := .coarseMove, player := some (visitor.state 0) }
    e.isCancelled = false ∧
      (∃ visits, Tour visitor marching query (parade.filter (·.scope = .effect)) 0 visits o ∧
        Entry.requests o.trace = visits.flatMap (·.requests)) ∧
      Entry.requests o.trace = [.setVelocity (.splat .one), .applyKit ⟨"armour"⟩ false,
        .setVelocity (.splat .half), .removeKit ⟨"boat"⟩] ∧
      o.world = 2 ∧ o.event = e := by
  intro d e o query
  obtain ⟨visits, htour, -, hrequests, -⟩ :=
    (applyEffects_visits d parade rfl (some visitor) marching e 0).2 visitor rfl rfl
  have ho : o = runEffects visitor marching query (parade.filter (·.scope = .effect)) e 0 :=
    applyEffects_eq_runEffects visitor marching rfl rfl 0
  refine ⟨rfl, ⟨visits, htour, hrequests⟩, ?_⟩
  rw [ho]
  exact ⟨by decide +kernel, by decide +kernel, event_runEffects visitor marching query _ e 0⟩

end Parade

end Dispatcher
end RegionRules
