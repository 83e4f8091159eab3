import RegionRules.Proofs.Dispatch.Effects

/-!
# Journeys

A journey is a run of moves of one player, each from where the player is.  A move that the rules
cancel leaves the player in place; any other takes it to the target.  Between the moves anything may
happen to the match.

On the way a rule on effects meets the player in the state in which the rules before it have left
the match, and looks whether the player can interact.  These states are listed
(`Dispatcher.journeyStates`), so that a theorem may ask of them that the player can.

Take a rule on effects that lends a kit of its own and never denies (`Rule.LendsAlone`).  One move
hands the kit out or takes it back just when it carries the player over the boundary of the rule's
region (`stage_spec`), because entry and exit are decided on the same two places, and the place
that one move ends at is the place that the next one starts from.  So the kit goes back and forth,
and the player has it as often as it is inside (`lentKit_balanced`).
-/

set_option autoImplicit false

namespace RegionRules

variable {σ : Type}

namespace Region

variable (s : σ) (r : Region σ) (origin target : Vec3)

lemma enters_some : r.enters s (some origin) target =
    (!r.contains s origin && r.contains s target) := rfl

lemma exits_some : r.exits s (some origin) target =
    (r.contains s origin && !r.contains s target) := rfl

end Region

/-! ## Moves of a journey -/

/-- A leg of a journey: what happens to the match before it, and where it goes. -/
structure Leg (σ : Type) where
  meanwhile : σ → σ
  target : Vec3

/-- A move that was put to a dispatcher, with the outcome. -/
structure Stage (σ : Type) where
  move : CoarseMove
  outcome : Outcome σ

namespace Stage

/-- The move does not go ahead. -/
def isCancelled (stage : Stage σ) : Bool := stage.outcome.event.isCancelled

/-- Where the player is after the move. -/
def arrival (stage : Stage σ) : Vec3 :=
  if stage.isCancelled then stage.move.origin else stage.move.target

/-- What the move asks of the player. -/
def requests (stage : Stage σ) : List Request := Entry.requests stage.outcome.trace

/-- Where the player is after moves that start at a place. -/
def destination (start : Vec3) (stages : List (Stage σ)) : Vec3 :=
  stages.foldl (fun _ stage => stage.arrival) start

end Stage

namespace Dispatcher

/-- A leg of a journey from a place, in a state. -/
def stage (d : Dispatcher σ) (p : Player σ) (place : Vec3) (w : σ) (leg : Leg σ) : Stage σ :=
  ⟨⟨place, leg.target⟩, d.onCoarseMove (some p) ⟨place, leg.target⟩ {} (leg.meanwhile w)⟩

/-- The moves of a journey from a place, in a state. -/
def journey (d : Dispatcher σ) (p : Player σ) : Vec3 → σ → List (Leg σ) → List (Stage σ)
  | _, _, [] => []
  | place, w, leg :: legs =>
    let stage := d.stage p place w leg
    stage :: journey d p stage.arrival stage.outcome.world legs

/-! ## The states on the way -/

/-- The states in which rules on effects meet the player, each rule in the state in which those
before it have left the match. -/
def effectStates (p : Player σ) (move : CoarseMove) (query : Query) :
    List (Rule σ) → Event → σ → List σ
  | [], _, _ => []
  | rule :: rules, e, w =>
    let given := applyEffect p move query rule e w
    w :: effectStates p move query rules given.event given.world

/-- The states in which the move of a leg meets rules on effects.  It meets none if it is
cancelled. -/
def stageStates (d : Dispatcher σ) (p : Player σ) (place : Vec3) (w : σ) (leg : Leg σ) : List σ :=
  let move : CoarseMove := ⟨place, leg.target⟩
  let checked := d.checkEnterLeave (some p) (some place) leg.target (.coarseMove move {})
    (leg.meanwhile w)
  if checked.event.isCancelled then []
  else
    let query : Query := { kind := checked.event.kind, player := some (p.state checked.world) }
    effectStates p move query (d.rules.ofScope .effect) checked.event checked.world

/-- The states in which a journey meets rules on effects. -/
def journeyStates (d : Dispatcher σ) (p : Player σ) : Vec3 → σ → List (Leg σ) → List σ
  | _, _, [] => []
  | place, w, leg :: legs =>
    let stage := d.stage p place w leg
    d.stageStates p place w leg ++ journeyStates d p stage.arrival stage.outcome.world legs

/-- A rule meets the player where the rules before it leave the match. -/
lemma mem_effectStates (p : Player σ) (move : CoarseMove) (query : Query)
    (before after : List (Rule σ)) (rule : Rule σ) (e : Event) (w : σ) :
    (runEffects p move query before e w).world ∈
      effectStates p move query (before ++ rule :: after) e w := by
  induction before generalizing e w with
  | nil => exact List.mem_cons_self
  | cons first before ih => exact List.mem_cons_of_mem _ (ih _ _)

/-- Every move of a journey is the move of a leg, and its states are states of the journey. -/
lemma exists_of_mem_journey {d : Dispatcher σ} {p : Player σ} {start : Vec3} {w : σ}
    {legs : List (Leg σ)} {stage : Stage σ} (h : stage ∈ d.journey p start w legs) :
    ∃ w₁ leg, stage = d.stage p stage.move.origin w₁ leg ∧
      d.stageStates p stage.move.origin w₁ leg ⊆ d.journeyStates p start w legs := by
  induction legs generalizing start w with
  | nil => cases h
  | cons leg legs ih =>
    rcases List.mem_cons.1 h with rfl | h
    · exact ⟨w, leg, rfl, List.subset_append_left _ _⟩
    · obtain ⟨w₁, leg₁, hstage, hstates⟩ := ih h
      exact ⟨w₁, leg₁, hstage, List.subset_append_of_subset_right _ hstates⟩

/-! ## Requests of a move -/

/-- A move that goes ahead asks of the player what the rules on effects ask, in the states of the
stage; a cancelled one asks nothing. -/
lemma stage_cases (d : Dispatcher σ) (p : Player σ) (place : Vec3) (w : σ) (leg : Leg σ) :
    let stage := d.stage p place w leg
    let rules := d.rules.ofScope .effect
    (stage.arrival = place ∧ stage.requests = []) ∨
      (stage.arrival = leg.target ∧ ∃ query e w₁,
        d.stageStates p place w leg = effectStates p stage.move query rules e w₁ ∧
          stage.requests =
            Entry.requests (runEffects p stage.move query rules e w₁).trace) := by
  intro stage rules
  let checked := d.checkEnterLeave (some p) (some place) leg.target (.coarseMove stage.move {})
    (leg.meanwhile w)
  let given := d.applyEffects (some p) stage.move checked.event checked.world
  have hevent : stage.outcome.event = given.event := rfl
  have hrequests : stage.requests = Entry.requests given.trace := by
    have hchecked : Entry.requests checked.trace = [] := requests_checkEnterLeave ..
    change Entry.requests (checked.trace ++ given.trace) = _
    rw [Entry.requests_append, hchecked, List.nil_append]
  cases hcancelled : checked.event.isCancelled with
  | true =>
    have hgiven : given = .unchanged checked.event checked.world := if_pos hcancelled
    left
    rw [hgiven] at hevent hrequests
    exact ⟨if_pos ((congrArg Event.isCancelled hevent).trans hcancelled), hrequests⟩
  | false =>
    let query : Query := { kind := checked.event.kind, player := some (p.state checked.world) }
    have hgiven : given = runEffects p stage.move query rules checked.event checked.world :=
      if_neg (Bool.not_eq_true _ ▸ hcancelled)
    right
    rw [hgiven, event_runEffects] at hevent
    rw [hgiven] at hrequests
    refine ⟨if_neg ?_, query, _, _, if_neg (Bool.not_eq_true _ ▸ hcancelled), hrequests⟩
    rw [Stage.isCancelled, hevent, hcancelled]
    exact Bool.false_ne_true

/-- Requests that concern one rule only can be read off its contribution, in the state in which it
meets the player. -/
lemma exists_filterMap_runEffects {β : Type} {g : Request → Option β} {p : Player σ}
    (move : CoarseMove) (query : Query) {before after : List (Rule σ)} {rule : Rule σ}
    (hscope : rule.scope = .effect)
    (hothers : ∀ other ∈ before ++ after, ∀ request, Concerns other request → g request = none)
    (e : Event) (w : σ) :
    let rules := (before ++ rule :: after).filter (·.scope = .effect)
    ∃ w₁ ∈ effectStates p move query rules e w,
      (Entry.requests (runEffects p move query rules e w).trace).filterMap g =
        (contribution p move query rule w₁).filterMap g := by
  intro rules
  have hrules : rules = before.filter (·.scope = .effect) ++
      rule :: after.filter (·.scope = .effect) := by
    rw [← List.filter_cons_of_pos (by simp [hscope]), ← List.filter_append]
  -- Before and after the rule nothing is left of the requests.
  have hnone (rules : List (Rule σ)) (hrules : rules ⊆ before ++ after) (w₀ : σ) :
      (Entry.requests (runEffects p move query (rules.filter (·.scope = .effect)) e
        w₀).trace).filterMap g = [] := by
    rw [List.filterMap_eq_nil_iff]
    intro request hrequest
    obtain ⟨other, hother, hconcerns⟩ :=
      forall_mem_requests_runEffects p move query _ e w₀ request hrequest
    exact hothers other (hrules (List.mem_of_mem_filter hother)) request hconcerns
  refine ⟨_, hrules ▸ mem_effectStates p move query _ _ rule e w, ?_⟩
  rw [hrules, runEffects_append, Outcome.trace_andThen, Entry.requests_append, event_runEffects,
    requests_runEffects_cons, List.filterMap_append, List.filterMap_append,
    hnone before (List.subset_append_left _ _), hnone after (List.subset_append_right _ _),
    List.nil_append, List.append_nil]

end Dispatcher

/-! ## Kits handed out and taken back -/

/-- What a request does with a kit: hand it out (`true`) or take it back (`false`). -/
def Request.handing? (kit : KitId) : Request → Option Bool
  | .applyKit k _ => if k = kit then some true else none
  | .removeKit k => if k = kit then some false else none
  | .setVelocity _ => none
  | .warn _ => none

/-- What requests do with a kit, in order. -/
def handings (kit : KitId) (requests : List Request) : List Bool :=
  requests.filterMap (·.handing? kit)

/-- What is handed to someone who gets from one side of a boundary to the other. -/
def crossing (before after : Bool) : List Bool := if before = after then [] else [after]

lemma handings_append (kit : KitId) (rs rs' : List Request) :
    handings kit (rs ++ rs') = handings kit rs ++ handings kit rs' := List.filterMap_append

lemma handings_flatMap (kit : KitId) (stages : List (Stage σ)) :
    handings kit (stages.flatMap Stage.requests) =
      stages.flatMap fun stage => handings kit stage.requests := List.filterMap_flatMap

lemma isChain_crossing {a b : Bool} {rest : List Bool} (h : (b :: rest).IsChain (· ≠ ·)) :
    (a :: (crossing a b ++ rest)).IsChain (· ≠ ·) := by
  unfold crossing
  split_ifs with hab
  · rwa [hab, List.nil_append]
  · exact List.isChain_cons_cons.2 ⟨hab, h⟩

lemma count_crossing (a b : Bool) :
    ((crossing a b).count true : ℤ) - (crossing a b).count false = b.toNat - a.toNat := by
  cases a <;> cases b <;> rfl

lemma count_true_crossing (a b : Bool) :
    (crossing a b).count true = if a = false ∧ b = true then 1 else 0 := by
  cases a <;> cases b <;> rfl

/-- On effects the rule lends a kit that no other rule has.  Its region stays as it is, whatever
happens to the match, and its filter never denies. -/
structure Rule.LendsAlone (rule : Rule σ) (kit : KitId) (others : List (Rule σ)) : Prop where
  scope : rule.scope = .effect
  has_kit : rule.kit = some kit
  lends : rule.lendKit = true
  alone : ∀ other ∈ others, other.kit ≠ some kit
  region : ∀ w w' q, rule.region.contains w q = rule.region.contains w' q
  filter : ∀ filter, rule.filter = some filter → ∀ query w, (filter.ask query w).1 ≠ .deny

namespace Dispatcher

variable {p : Player σ} {rule : Rule σ} {kit : KitId}

section Contribution

variable {before after : List (Rule σ)} (h : rule.LendsAlone kit (before ++ after))

include h

/-- The rule gives what is due. -/
lemma contribution_eq (move : CoarseMove) (query : Query) {w : σ}
    (hactive : p.canInteract w = true) :
    contribution p move query rule w =
      if rule.region.enters w (some move.origin) move.target then
        rule.velocity.toList.map .setVelocity ++ [.applyKit kit false]
      else if rule.region.exits w (some move.origin) move.target then [.removeKit kit]
      else [] := by
  have hallow : (rule.filter.any fun filter => (filter.ask query w).1 == .deny) = false := by
    cases hfilter : rule.filter with
    | none => rfl
    | some filter => exact beq_false_of_ne (h.filter filter hfilter query w)
  rw [contribution, hallow, Bool.and_false, if_neg Bool.false_ne_true, dues, effects, hactive,
    h.has_kit, h.lends, Region.enters_some, Region.exits_some]
  cases rule.region.contains w move.origin <;> cases rule.region.contains w move.target <;> simp

section Effects

variable {move : CoarseMove} {query : Query} {e : Event} {w : σ}
  (hactive : ∀ w' ∈ effectStates p move query
    ((before ++ rule :: after).filter (·.scope = .effect)) e w, p.canInteract w' = true)

include hactive

/-- **A rule that lends alone hands its kit out on entry and takes it back on exit.** -/
lemma handings_runEffects (w₀ : σ) :
    handings kit (Entry.requests (runEffects p move query
        ((before ++ rule :: after).filter (·.scope = .effect)) e w).trace) =
      crossing (rule.region.contains w₀ move.origin) (rule.region.contains w₀ move.target) := by
  have hothers : ∀ other ∈ before ++ after, ∀ request, Concerns other request →
      request.handing? kit = none := by
    intro other hother request hconcerns
    have hkit := h.alone other hother
    cases request with
    | applyKit k force => exact if_neg fun hk : k = kit => hkit (hk ▸ hconcerns)
    | removeKit k => exact if_neg fun hk : k = kit => hkit (hk ▸ hconcerns)
    | setVelocity velocity => rfl
    | warn message => rfl
  obtain ⟨w₁, hmem, hw₁⟩ := exists_filterMap_runEffects move query h.scope hothers e w
  rw [handings, hw₁, contribution_eq h move query (hactive w₁ hmem), Region.enters_some,
    Region.exits_some, h.region w₀ w₁, h.region w₀ w₁]
  cases rule.region.contains w₁ move.origin <;> cases rule.region.contains w₁ move.target <;>
    simp [Request.handing?, crossing]

/-- A velocity of the rule alone is given on entry. -/
lemma count_setVelocity_runEffects {velocity : Vec3} (hvelocity : rule.velocity = some velocity)
    (hothers : ∀ other ∈ before ++ after, other.velocity ≠ some velocity) (w₀ : σ) :
    (Entry.requests (runEffects p move query
        ((before ++ rule :: after).filter (·.scope = .effect)) e w).trace).count
          (.setVelocity velocity) =
      (crossing (rule.region.contains w₀ move.origin) (rule.region.contains w₀ move.target)).count
        true := by
  let g : Request → Option Request := Option.guard (· == .setVelocity velocity)
  have hnone : ∀ other ∈ before ++ after, ∀ request, Concerns other request →
      g request = none := by
    intro other hother request hconcerns
    rw [Option.guard_eq_none_iff, beq_eq_false_iff_ne]
    rintro rfl
    exact hothers other hother hconcerns
  obtain ⟨w₁, hmem, hw₁⟩ := exists_filterMap_runEffects move query h.scope hnone e w
  rw [List.filterMap_eq_filter] at hw₁
  rw [List.count_eq_length_filter, hw₁, contribution_eq h move query (hactive w₁ hmem),
    Region.enters_some, Region.exits_some, h.region w₀ w₁, h.region w₀ w₁, hvelocity]
  cases rule.region.contains w₁ move.origin <;> cases rule.region.contains w₁ move.target <;>
    simp [crossing]

end Effects

/-! ## One move -/

variable {d : Dispatcher σ} (hrules : d.rules = .ofList (before ++ rule :: after))

include hrules

/-- **A move hands the kit out or takes it back just when it carries the player over the boundary,**
and it launches the player when it hands the kit out. -/
lemma stage_spec {place : Vec3} {w : σ} {leg : Leg σ}
    (hactive : ∀ w' ∈ d.stageStates p place w leg, p.canInteract w' = true) (w₀ : σ) :
    let stage := d.stage p place w leg
    let crossed :=
      crossing (rule.region.contains w₀ place) (rule.region.contains w₀ stage.arrival)
    handings kit stage.requests = crossed ∧
      ∀ velocity, rule.velocity = some velocity →
        (∀ other ∈ before ++ after, other.velocity ≠ some velocity) →
        stage.requests.count (.setVelocity velocity) = crossed.count true := by
  intro stage crossed
  rcases d.stage_cases p place w leg with
    ⟨harrival, hrequests⟩ | ⟨harrival, query, e, w₁, hstates, hrequests⟩
  · have hcrossed : crossed = [] := if_pos (by rw [harrival])
    rw [hcrossed, hrequests]
    exact ⟨rfl, fun _ _ _ => rfl⟩
  · have hcrossed : crossed =
        crossing (rule.region.contains w₀ place) (rule.region.contains w₀ leg.target) := by
      rw [← harrival]
    have heffects : d.rules.ofScope .effect =
        (before ++ rule :: after).filter (·.scope = .effect) := by
      rw [hrules, RuleSet.ofScope_ofList]
    rw [hstates, heffects] at hactive
    rw [hcrossed, hrequests, heffects]
    exact ⟨handings_runEffects h hactive w₀, fun velocity hvelocity hothers =>
      count_setVelocity_runEffects h hactive hvelocity hothers w₀⟩

/-! ## Whole journeys -/

/-- The balance of a journey. -/
lemma handings_journey {start : Vec3} {w : σ} {legs : List (Leg σ)}
    (hactive : ∀ w' ∈ d.journeyStates p start w legs, p.canInteract w' = true) (w₀ : σ) :
    let stages := d.journey p start w legs
    let inside (place : Vec3) : Bool := rule.region.contains w₀ place
    let handed := handings kit (stages.flatMap Stage.requests)
    (inside start :: handed).IsChain (· ≠ ·) ∧
      (handed.count true : ℤ) - handed.count false =
        (inside (Stage.destination start stages)).toNat - (inside start).toNat := by
  intro stages inside handed
  induction legs generalizing start w with
  | nil => exact ⟨List.isChain_singleton _, (sub_self _).symm⟩
  | cons leg legs ih =>
    obtain ⟨hleg, hlegs⟩ := List.forall_mem_append.1 hactive
    let stage := d.stage p start w leg
    let rest := d.journey p stage.arrival stage.outcome.world legs
    obtain ⟨hchain, hcount⟩ := ih hlegs
    have hstage : handings kit stage.requests = crossing (inside start) (inside stage.arrival) :=
      (stage_spec h hrules hleg w₀).1
    have hhanded : handed = crossing (inside start) (inside stage.arrival) ++
        handings kit (rest.flatMap Stage.requests) := by
      rw [← hstage, ← handings_append]
      rfl
    have hdestination : Stage.destination start stages = Stage.destination stage.arrival rest :=
      rfl
    rw [hhanded, hdestination]
    -- The rest starts where this move ends, so the two share that side of the boundary.
    refine ⟨isChain_crossing hchain, ?_⟩
    have hcrossing := count_crossing (inside start) (inside stage.arrival)
    rw [List.count_append, List.count_append]
    push_cast
    linarith

end Contribution

/-- **A lent kit goes back and forth.**  Let a player travel who can interact whenever a rule on
effects meets it on the way, and let a rule lend a kit alone.  The kit is handed out and taken back
in turn, first handed out if the player starts outside; so far it was handed out as much more often
than taken back as the player is inside now and was not at the start.  A velocity that the rule
alone has is given once with every move that goes ahead from outside to inside, which is as often
as the kit is handed out. -/
theorem lentKit_balanced (d : Dispatcher σ) (before after : List (Rule σ)) (rule : Rule σ)
    (hrules : d.rules = .ofList (before ++ rule :: after)) (kit : KitId)
    (h : rule.LendsAlone kit (before ++ after)) (p : Player σ) (start : Vec3) (w : σ)
    (legs : List (Leg σ))
    (hactive : ∀ w' ∈ d.journeyStates p start w legs, p.canInteract w' = true) :
    let stages := d.journey p start w legs
    let inside (place : Vec3) : Bool := rule.region.contains w place
    let handed := handings kit (stages.flatMap Stage.requests)
    (inside start :: handed).IsChain (· ≠ ·) ∧
      (handed.count true : ℤ) - handed.count false =
        (inside (Stage.destination start stages)).toNat - (inside start).toNat ∧
      ∀ velocity, rule.velocity = some velocity →
        (∀ other ∈ before ++ after, other.velocity ≠ some velocity) →
        (∀ stage ∈ stages, stage.requests.count (.setVelocity velocity) =
          if stage.isCancelled = false ∧ inside stage.move.origin = false ∧
            inside stage.move.target = true then 1 else 0) ∧
        (stages.flatMap Stage.requests).count (.setVelocity velocity) = handed.count true := by
  intro stages inside handed
  obtain ⟨hchain, hcount⟩ := handings_journey h hrules hactive w
  refine ⟨hchain, hcount, fun velocity hvelocity hothers => ?_⟩
  have hstage : ∀ stage ∈ stages,
      handings kit stage.requests =
        crossing (inside stage.move.origin) (inside stage.arrival) ∧
      stage.requests.count (.setVelocity velocity) =
        (crossing (inside stage.move.origin) (inside stage.arrival)).count true := by
    intro stage hmem
    obtain ⟨w₁, leg, hstage, hstates⟩ := exists_of_mem_journey hmem
    have hspec := stage_spec h hrules (fun w' hw' => hactive w' (hstates hw')) w
    rw [← hstage] at hspec
    exact ⟨hspec.1, hspec.2 velocity hvelocity hothers⟩
  constructor
  · intro stage hmem
    rw [(hstage stage hmem).2, count_true_crossing, Stage.arrival]
    cases stage.isCancelled with
    | true => simp
    | false => simp
  · calc
      (stages.flatMap Stage.requests).count (.setVelocity velocity)
        = (stages.map fun stage => stage.requests.count (.setVelocity velocity)).sum :=
          List.count_flatMap
      _ = (stages.map fun stage => (handings kit stage.requests).count true).sum := by
          refine congrArg List.sum (List.map_congr_left fun stage hmem => ?_)
          rw [(hstage stage hmem).1, (hstage stage hmem).2]
      _ = (stages.flatMap fun stage => handings kit stage.requests).count true :=
          List.count_flatMap.symm
      _ = handed.count true := congrArg _ (handings_flatMap kit stages).symm

section Gate

/-- Denies the first question.  The state is the phase of the match: 0 before that question, 1 from
then on, and 2 when the match is over. -/
def turnstile : Rule ℕ where
  scope := .playerEnter
  region := .block ⟨0, 0, 0⟩
  filter := some ⟨"once", fun _ phase => (if phase = 0 then .deny else .abstain, 1)⟩

/-- Lends armour in the same block, and lifts whoever enters. -/
def armoury : Rule ℕ where
  scope := .effect
  region := .block ⟨0, 0, 0⟩
  velocity := some ⟨.ofInt 0, .one, .ofInt 0⟩
  kit := some ⟨"armour"⟩
  lendKit := true

/-- A player who may interact until the match is over. -/
def traveller : Player ℕ where
  id := 1
  location _ := .splat .half
  canInteract phase := phase ≤ 1
  itemInHand _ := none
  perform _ phase := phase

/-- Into the block twice, the first time in vain, then out, in again, and on within the block. -/
def errand : List (Leg ℕ) :=
  [.half, .half, .ofInt 3, .half, .one].map fun x => ⟨id, .splat x⟩

/-- The first move is cancelled, the second one brings the armour; in the end the player has it.
The four moves that go ahead find the player free to interact. -/
theorem armour_balanced :
    let d : Dispatcher ℕ := ⟨.ofList [turnstile, armoury], false, true, none⟩
    let stages := d.journey traveller (.splat (.ofInt 3)) 0 errand
    let handed := handings ⟨"armour"⟩ (stages.flatMap Stage.requests)
    armoury.LendsAlone ⟨"armour"⟩ [turnstile] ∧
      d.journeyStates traveller (.splat (.ofInt 3)) 0 errand = [1, 1, 1, 1] ∧
      (∀ phase ∈ d.journeyStates traveller (.splat (.ofInt 3)) 0 errand,
        traveller.canInteract phase = true) ∧
      handed = [true, false, true] ∧ (false :: handed).IsChain (· ≠ ·) ∧
      (handed.count true : ℤ) - handed.count false = 1 ∧
      (stages.flatMap Stage.requests).count (.setVelocity ⟨.ofInt 0, .one, .ofInt 0⟩) = 2 := by
  intro d stages handed
  have hlends : armoury.LendsAlone ⟨"armour"⟩ [turnstile] := by
    refine ⟨rfl, rfl, rfl, fun other hother => ?_, fun _ _ _ => rfl, fun _ h => nomatch h⟩
    rw [List.mem_singleton.1 hother]
    exact nofun
  have hothers : ∀ other ∈ [turnstile], other.velocity ≠ some ⟨.ofInt 0, .one, .ofInt 0⟩ := by
    intro other hother
    rw [List.mem_singleton.1 hother]
    exact nofun
  have hscope : ∀ scope, d.rules.ofScope scope = [turnstile, armoury].filter (·.scope = scope) :=
    RuleSet.ofScope_ofList _
  have hgive : d.applyEffects (some traveller) = fun move e w =>
      if e.isCancelled then .unchanged e w else
        runEffects traveller move { kind := e.kind, player := some (traveller.state w) }
          [armoury] e w := by
    funext move e w
    exact congrArg (fun rules => if e.isCancelled then Outcome.unchanged e w else
      runEffects traveller move { kind := e.kind, player := some (traveller.state w) } rules e w)
      (RuleSet.ofScope_ofList _ _)
  have hhanded : handed = [true, false, true] := by
    simp only [handed, stages, errand, List.map, journey, stage, onCoarseMove, checkEnterLeave,
      hgive, hscope]
    decide +kernel
  have hstates : d.journeyStates traveller (.splat (.ofInt 3)) 0 errand = [1, 1, 1, 1] := by
    simp only [errand, List.map, journeyStates, stageStates, stage, onCoarseMove, checkEnterLeave,
      hgive, hscope]
    decide +kernel
  have hactive : ∀ phase ∈ d.journeyStates traveller (.splat (.ofInt 3)) 0 errand,
      traveller.canInteract phase = true := by
    rw [hstates]
    decide
  obtain ⟨hchain, hcount, hlaunch⟩ := lentKit_balanced d [turnstile] [] armoury rfl ⟨"armour"⟩
    hlends traveller (.splat (.ofInt 3)) 0 errand hactive
  have hstart : armoury.region.contains 0 (.splat (.ofInt 3)) = false := by decide +kernel
  have hbalance : (handed.count true : ℤ) - handed.count false = 1 := by
    rw [hhanded]
    rfl
  exact ⟨hlends, hstates, hactive, hhanded, hstart ▸ hchain, hbalance,
    (hlaunch _ rfl hothers).2.trans (congrArg (List.count true) hhanded)⟩

end Gate

end Dispatcher
end RegionRules
