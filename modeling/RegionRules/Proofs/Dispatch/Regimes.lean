import RegionRules.Proofs.Dispatch.Walks
import RegionRules.Proofs.Rule.RuleSet
import RegionRules.Dispatch.Dispatcher

/-!
# The two regimes

Moves and block changes concern rules of several scopes.  In the priority regime one walk through
all rules serves them together and ends at the first decision (`priority_firstDecides`).  In the
legacy regime each scope is walked by itself, a walk ends only at a decision of a priority-aware
rule, and the last decision stands (`legacy_lastDecides`).

What the rules are asked is said by concerns: `MoveConcern` for entry and exit, `ChangeConcern` for
the three scopes of a block change.  The legacy regime tests every block rule at the new block.
-/

set_option autoImplicit false

namespace RegionRules

/-- The scope of a block change in the legacy regime. -/
def BlockTransform.legacyScope (change : BlockTransform) : Scope :=
  if change.isPlace then .blockPlace else .blockBreak

/-- The block that a block change is about in the legacy regime. -/
def BlockTransform.legacyBlock (change : BlockTransform) : Block :=
  if change.isPlace then change.new else change.old

namespace Dispatcher

variable {σ : Type}

/-! ## Concerns -/

/-- A move concerns the rules on entry whose region it enters and the rules on exit whose region it
exits; all are asked the same. -/
inductive MoveConcern (query : Query) (origin : Option Vec3) (target : Vec3) (rule : Rule σ)
    (w : σ) : Query → Prop
  | enter (hscope : rule.scope = .playerEnter)
      (hregion : rule.region.enters w origin target = true) :
      MoveConcern query origin target rule w query
  | leave (hscope : rule.scope = .playerLeave)
      (hregion : rule.region.exits w origin target = true) :
      MoveConcern query origin target rule w query

/-- What a rule is asked about a block in a change. -/
def changeQuery (actor : Option PlayerState) (block : Block) : Query :=
  { kind := .blockTransform, player := actor, block := some block }

/-- A block change concerns the rules on breaking at the old block, those on placing at the new one,
and those on placing against a block at the block that the cause names; each is asked about its
own block. -/
inductive ChangeConcern (actor : Option PlayerState) (change : BlockTransform) (rule : Rule σ)
    (w : σ) : Query → Prop
  | breaking (hscope : rule.scope = .blockBreak) (hbreak : change.isBreak = true)
      (hregion : rule.region.containsBlock w change.old.position = true) :
      ChangeConcern actor change rule w (changeQuery actor change.old)
  | placing (hscope : rule.scope = .blockPlace) (hplace : change.isPlace = true)
      (hregion : rule.region.containsBlock w change.new.position = true) :
      ChangeConcern actor change rule w (changeQuery actor change.new)
  | against (block : Block) (hscope : rule.scope = .blockPlaceAgainst)
      (hcause : change.cause.against? = some block)
      (hregion : rule.region.containsBlock w block.position = true) :
      ChangeConcern actor change rule w (changeQuery actor block)

/-- A position concerns the rules whose region has it; all are asked the same. -/
def BlockConcern (position : BlockPos) (query : Query) : Concern σ := fun rule w query' =>
  rule.region.containsBlock w position = true ∧ query' = query

/-! ## The passes of the handlers -/

/-- The pass for moves. -/
def movePass (query : Query) (origin : Option Vec3) (target : Vec3) (halts : Rule σ → Bool) :
    Pass σ where
  select rule w :=
    let crosses := match rule.scope with
      | .playerEnter => rule.region.enters w origin target
      | .playerLeave => rule.region.exits w origin target
      | _ => false
    if crosses then some query else none
  halts := halts

/-- The pass for block changes in the priority regime. -/
def changePass (actor : Option PlayerState) (change : BlockTransform) : Pass σ where
  select rule w :=
    let about (b : Block) : Option Query := blockQuery b.position (changeQuery actor b) rule w
    match rule.scope with
    | .blockBreak => if change.isBreak then about change.old else none
    | .blockPlace => if change.isPlace then about change.new else none
    | .blockPlaceAgainst => change.cause.against?.bind about
    | _ => none
  halts := fun _ => true

/-- The pass for block changes in the legacy regime. -/
def replacePass (actor : Option PlayerState) (change : BlockTransform) : Pass σ where
  select := blockQuery change.new.position (changeQuery actor change.legacyBlock)
  halts := (·.priorityAware)

lemma movePass_select {query query' : Query} {origin : Option Vec3} {target : Vec3}
    {halts : Rule σ → Bool} {rule : Rule σ} {w : σ} :
    (movePass query origin target halts).select rule w = some query' ↔
      MoveConcern query origin target rule w query' := by
  unfold movePass
  constructor
  · intro h
    cases hscope : rule.scope <;> simp only [hscope, Option.ite_none_right_eq_some,
      Option.some.injEq, Bool.false_eq_true, false_and] at h
    · obtain ⟨hregion, rfl⟩ := h
      exact .enter hscope hregion
    · obtain ⟨hregion, rfl⟩ := h
      exact .leave hscope hregion
  · rintro (⟨hscope, hregion⟩ | ⟨hscope, hregion⟩) <;> simp [hscope, hregion]

/-- A move passes by the rules that are neither on entry nor on exit. -/
lemma movePass_select_eq_none {query : Query} {origin : Option Vec3} {target : Vec3}
    (halts : Rule σ → Bool) {rule : Rule σ} (henter : rule.scope ≠ .playerEnter)
    (hleave : rule.scope ≠ .playerLeave) (w : σ) :
    (movePass query origin target halts).select rule w = none := by
  refine Option.eq_none_iff_forall_ne_some.2 fun query' hselect => ?_
  rcases movePass_select.1 hselect with ⟨hscope, -⟩ | ⟨hscope, -⟩
  exacts [henter hscope, hleave hscope]

lemma blockQuery_eq_some {position : BlockPos} {query query' : Query} {rule : Rule σ} {w : σ} :
    blockQuery position query rule w = some query' ↔
      BlockConcern position query rule w query' := by
  unfold blockQuery BlockConcern
  rw [Option.ite_none_right_eq_some, Option.some.injEq, @eq_comm _ query query']

lemma changePass_select {actor : Option PlayerState} {change : BlockTransform} {query : Query}
    {rule : Rule σ} {w : σ} :
    (changePass actor change).select rule w = some query ↔
      ChangeConcern actor change rule w query := by
  unfold changePass
  constructor
  · intro h
    cases hscope : rule.scope <;> simp only [hscope, Option.ite_none_right_eq_some,
      Option.bind_eq_some_iff, blockQuery_eq_some, reduceCtorEq] at h
    · obtain ⟨hbreak, hregion, rfl⟩ := h
      exact .breaking hscope hbreak hregion
    · obtain ⟨hplace, hregion, rfl⟩ := h
      exact .placing hscope hplace hregion
    · obtain ⟨block, hcause, hregion, rfl⟩ := h
      exact .against block hscope hcause hregion
  · rintro (⟨hscope, hbreak, hregion⟩ | ⟨hscope, hplace, hregion⟩ |
      ⟨block, hscope, hcause, hregion⟩)
    · simp only [hscope, hbreak, if_true]
      exact blockQuery_eq_some.2 ⟨hregion, rfl⟩
    · simp only [hscope, hplace, if_true]
      exact blockQuery_eq_some.2 ⟨hregion, rfl⟩
    · simp only [hscope, hcause, Option.bind_some]
      exact blockQuery_eq_some.2 ⟨hregion, rfl⟩

section Handlers

variable (d : Dispatcher σ) {p : Player σ} {e : Event} {w : σ}

lemma active?_eq_some (hactive : p.canInteract w = true) :
    Player.active? (some p) w = some p := by
  simp [Player.active?, hactive]

lemma checkEnterLeave_of_priority (hd : d.usesPriority = true) (origin : Option Vec3)
    (target : Vec3) (hactive : p.canInteract w = true) (he : e.isCancelled = false) :
    d.checkEnterLeave (some p) origin target e w =
      (movePass { kind := e.kind, player := some (p.state w) } origin target fun _ => true).run
        d.rules.toList e w := by
  unfold checkEnterLeave
  rw [he, if_neg Bool.false_ne_true, active?_eq_some hactive]
  dsimp only
  rw [if_pos hd]
  rfl

lemma checkEnterLeave_of_legacy (hd : d.usesPriority = false) (origin : Option Vec3)
    (target : Vec3) (hactive : p.canInteract w = true) (he : e.isCancelled = false) :
    d.checkEnterLeave (some p) origin target e w =
      let pass := movePass { kind := e.kind, player := some (p.state w) } origin target
        (·.priorityAware)
      (pass.run (d.rules.ofScope .playerEnter) e w).andThen
        (pass.run (d.rules.ofScope .playerLeave)) := by
  unfold checkEnterLeave
  rw [he, if_neg Bool.false_ne_true, active?_eq_some hactive]
  dsimp only
  rw [hd, if_neg Bool.false_ne_true]
  rfl

variable (change : BlockTransform) {status : Status}

lemma checkBlockTransform_of_priority (hd : d.usesPriority = true)
    (hstatus : status.cancelled = false) (w : σ) :
    d.checkBlockTransform change status w =
      (changePass (d.actor change) change).run d.rules.toList (.blockTransform change status)
        w := by
  have he : (Event.blockTransform change status).isCancelled = false := hstatus
  unfold checkBlockTransform
  dsimp only
  rw [he, if_neg Bool.false_ne_true, if_pos hd]
  rfl

lemma checkBlockTransform_of_legacy (hd : d.usesPriority = false)
    (hstatus : status.cancelled = false) (w : σ) :
    d.checkBlockTransform change status w =
      (replacePass (d.actor change) change).run (d.rules.ofScope change.legacyScope)
        (.blockTransform change status) w := by
  have he : (Event.blockTransform change status).isCancelled = false := hstatus
  unfold checkBlockTransform replacePass BlockTransform.legacyScope BlockTransform.legacyBlock
  dsimp only
  rw [he, if_neg Bool.false_ne_true, hd, if_neg Bool.false_ne_true]
  cases change.isPlace <;> rfl

end Handlers

/-! ## The priority regime -/

/-- The rules are walked together up to the first decision, and the event stands after it. -/
structure FirstDecides (concern : Concern σ) (rules : List (Rule σ)) (e : Event) (w : σ)
    (o : Outcome σ) : Prop where
  walk : WalkTo concern (fun _ => True) rules w o.trace o.world
  event : e.StandsAfter (Entry.decisions o.trace).head? o.event

lemma firstDecides_run {pass : Pass σ} {concern : Concern σ}
    (hreact : pass.react = fun _ => .unchanged) (hhalts : pass.halts = fun _ => true)
    (hselect : ∀ rule w query, pass.select rule w = some query ↔ concern rule w query)
    (rules : List (Rule σ)) (e : Event) (w : σ) :
    FirstDecides concern rules e w (pass.run rules e w) := by
  have hwalk := Pass.run_walkTo hreact hselect rules e w
  simp only [hhalts] at hwalk
  refine ⟨hwalk, ?_⟩
  rw [hwalk.head?_decisions]
  exact Pass.run_standsAfter hreact rules e w

/-- **In the priority regime the first decision stands.**  A move by a player who can interact, or a
block change, that is not cancelled yet is put to the rules that it concerns, in the order of their
declaration whatever their scopes, up to and including the first that decides. -/
theorem priority_firstDecides (rules : List (Rule σ)) (ownedExplosions : Bool)
    (maxBuildHeight : Option Int32) (w : σ) :
    let d : Dispatcher σ := ⟨.ofList rules, true, ownedExplosions, maxBuildHeight⟩
    (∀ (p : Player σ) (origin : Option Vec3) (target : Vec3) (e : Event),
      p.canInteract w = true → e.isCancelled = false →
      FirstDecides (MoveConcern { kind := e.kind, player := some (p.state w) } origin target)
        rules e w (d.checkEnterLeave (some p) origin target e w)) ∧
    ∀ (change : BlockTransform) (status : Status), status.cancelled = false →
      FirstDecides (ChangeConcern (d.actor change) change) rules (.blockTransform change status) w
        (d.checkBlockTransform change status w) := by
  intro d
  constructor
  · intro p origin target e hactive he
    rw [checkEnterLeave_of_priority d rfl origin target hactive he]
    exact firstDecides_run rfl rfl (fun _ _ _ => movePass_select) rules e w
  · intro change status hstatus
    rw [checkBlockTransform_of_priority d change rfl hstatus w]
    exact firstDecides_run rfl rfl (fun _ _ _ => changePass_select) rules _ w

section Gates

/-- Lets the first question pass and denies all others; the state counts the questions. -/
def countingFilter : Filter ℕ where
  name := "counting"
  ask _ asked := (if asked = 0 then .abstain else .deny, asked + 1)

/-- Rules of three scopes; the region of the second one is there after the first question. -/
def gates : List (Rule ℕ) :=
  [{ scope := .playerLeave, region := .empty, filter := some countingFilter },
    { scope := .playerEnter
      region := .dynamic fun asked => if asked = 0 then .empty else .everywhere
      filter := some countingFilter
      message := some "closed" },
    { scope := .playerEnter, region := .everywhere, filter := some countingFilter },
    { scope := .blockPlace, region := .everywhere, filter := some countingFilter,
      message := some "no pictures", priorityAware := true }]

/-- A player who stands still and may interact. -/
def visitor : Player ℕ where
  id := 7
  location _ := .splat .half
  canInteract _ := true
  itemInHand _ := none
  perform _ asked := asked

/-- A painting takes the place of air. -/
def hangUp : BlockTransform where
  old := ⟨⟨0, 0, 0⟩, .air⟩
  new := ⟨⟨0, 0, 0⟩, .painting⟩
  cause := .other

/-- The rule on exit is asked first, which makes the region of the rule on entry.  Each decision
leaves the message of its rule. -/
theorem gates_firstDecides :
    let d : Dispatcher ℕ := ⟨.ofList gates, true, true, none⟩
    let e : Event := .coarseMove ⟨.splat .one, .splat .half⟩ {}
    let o := d.checkEnterLeave (some visitor) none (.splat .half) e 0
    visitor.canInteract 0 = true ∧ e.isCancelled = false ∧
      FirstDecides (MoveConcern { kind := .coarseMove, player := some ⟨7, .splat .half⟩ } none
        (.splat .half)) gates e 0 o ∧
      o.event = .coarseMove ⟨.splat .one, .splat .half⟩ ⟨true, some "closed"⟩ ∧
      FirstDecides (ChangeConcern (d.actor hangUp) hangUp) gates (.blockTransform hangUp {}) 1
        (d.checkBlockTransform hangUp {} 1) ∧
      (d.checkBlockTransform hangUp {} 1).event =
        .blockTransform hangUp ⟨true, some "no pictures"⟩ := by
  intro d e o
  have h := priority_firstDecides gates true none
  exact ⟨rfl, rfl, (h 0).1 visitor none _ e rfl rfl, rfl, (h 1).2 hangUp {} rfl, rfl⟩

end Gates

/-! ## The legacy regime -/

/-- The rule's decisions end a walk in the legacy regime. -/
def IsAware (rule : Rule σ) : Prop := rule.priorityAware = true

/-- The rules are walked up to the first decision of a priority-aware one, and the event stands
after the last decision. -/
structure LastDecides (concern : Concern σ) (rules : List (Rule σ)) (e : Event) (w : σ)
    (o : Outcome σ) : Prop where
  walk : WalkTo concern IsAware rules w o.trace o.world
  event : e.StandsAfter (Entry.decisions o.trace).getLast? o.event

lemma lastDecides_run {pass : Pass σ} {concern : Concern σ}
    (hreact : pass.react = fun _ => .unchanged) (hhalts : pass.halts = (·.priorityAware))
    (hselect : ∀ rule w query, pass.select rule w = some query ↔ concern rule w query)
    (rules : List (Rule σ)) (e : Event) (w : σ) :
    LastDecides concern rules e w (pass.run rules e w) := by
  have hwalk := Pass.run_walkTo hreact hselect rules e w
  simp only [hhalts] at hwalk
  exact ⟨hwalk, Pass.run_standsAfter hreact rules e w⟩

/-- **In the legacy regime the last decision stands.**  A move by a player who can interact is put
to the rules on entry and then, come what may, to the rules on exit.  A block change is put to the
rules on placing about the new block, or if nothing is placed to the rules on breaking about the old
one, in both cases to those whose region has the new block.  Each walk goes through the rules of
its scope in order and ends only at a decision of a priority-aware rule. -/
theorem legacy_lastDecides (rules : List (Rule σ)) (ownedExplosions : Bool)
    (maxBuildHeight : Option Int32) (w : σ) :
    let d : Dispatcher σ := ⟨.ofList rules, false, ownedExplosions, maxBuildHeight⟩
    (∀ (p : Player σ) (origin : Option Vec3) (target : Vec3) (e : Event),
      p.canInteract w = true → e.isCancelled = false →
      let o := d.checkEnterLeave (some p) origin target e w
      let concern := MoveConcern { kind := e.kind, player := some (p.state w) } origin target
      ∃ entered left : Outcome σ,
        LastDecides concern (rules.filter (·.scope = .playerEnter)) e w entered ∧
        LastDecides concern (rules.filter (·.scope = .playerLeave)) entered.event entered.world
          left ∧
        o = ⟨left.event, left.world, entered.trace ++ left.trace⟩ ∧
        e.StandsAfter (Entry.decisions o.trace).getLast? o.event) ∧
    ∀ (change : BlockTransform) (status : Status), status.cancelled = false →
      LastDecides
        (BlockConcern change.new.position (changeQuery (d.actor change) change.legacyBlock))
        (rules.filter (·.scope = change.legacyScope)) (.blockTransform change status) w
        (d.checkBlockTransform change status w) := by
  intro d
  constructor
  · intro p origin target e hactive he o concern
    let pass := movePass { kind := e.kind, player := some (p.state w) } origin target
      fun rule : Rule σ => rule.priorityAware
    have hpass (rules : List (Rule σ)) (e : Event) (w : σ) :
        LastDecides concern rules e w (pass.run rules e w) :=
      lastDecides_run rfl rfl (fun _ _ _ => movePass_select) rules e w
    let entered := pass.run (d.rules.ofScope .playerEnter) e w
    let left := pass.run (d.rules.ofScope .playerLeave) entered.event entered.world
    have ho : o = ⟨left.event, left.world, entered.trace ++ left.trace⟩ :=
      checkEnterLeave_of_legacy d rfl origin target hactive he
    have hentered : LastDecides concern _ e w entered := hpass _ e w
    have hleft : LastDecides concern _ entered.event entered.world left := hpass _ _ _
    refine ⟨entered, left, ?_, ?_, ho, ?_⟩
    · rwa [← RuleSet.ofScope_ofList]
    · rwa [← RuleSet.ofScope_ofList]
    · rw [ho, Entry.decisions_append]
      exact hentered.event.append hleft.event
  · intro change status hstatus
    rw [checkBlockTransform_of_legacy d change rfl hstatus w, ← RuleSet.ofScope_ofList]
    exact lastDecides_run rfl rfl (fun _ _ _ => blockQuery_eq_some) _ _ w

/-- The rules on entry are asked first and the region that the second one needs is not there yet, so
the rule on exit decides.  It has no message, and the one that the event came with is gone.  The
rule on placing has one. -/
theorem gates_lastDecides :
    let d : Dispatcher ℕ := ⟨.ofList gates, false, true, none⟩
    let e : Event := .coarseMove ⟨.splat .one, .splat .half⟩ ⟨false, some "closed"⟩
    let o := d.checkEnterLeave (some visitor) none (.splat .half) e 0
    let concern : Concern ℕ := MoveConcern
      { kind := .coarseMove, player := some ⟨7, .splat .half⟩ } none (.splat .half)
    visitor.canInteract 0 = true ∧ e.isCancelled = false ∧
      (∃ entered left : Outcome ℕ,
        LastDecides concern (gates.filter (·.scope = .playerEnter)) e 0 entered ∧
        LastDecides concern (gates.filter (·.scope = .playerLeave)) entered.event entered.world
          left ∧
        o = ⟨left.event, left.world, entered.trace ++ left.trace⟩ ∧
        e.StandsAfter (Entry.decisions o.trace).getLast? o.event) ∧
      o.event = .coarseMove ⟨.splat .one, .splat .half⟩ ⟨true, none⟩ ∧
      LastDecides (BlockConcern ⟨0, 0, 0⟩ (changeQuery (d.actor hangUp) hangUp.new))
        (gates.filter (·.scope = .blockPlace)) (.blockTransform hangUp {}) 1
        (d.checkBlockTransform hangUp {} 1) ∧
      (d.checkBlockTransform hangUp {} 1).event =
        .blockTransform hangUp ⟨true, some "no pictures"⟩ := by
  intro d e o concern
  have h := legacy_lastDecides gates true none
  have hmove : o.event = .coarseMove ⟨.splat .one, .splat .half⟩ ⟨true, none⟩ := by
    rw [show o = _ from checkEnterLeave_of_legacy d rfl none _ rfl rfl, RuleSet.ofScope_ofList,
      RuleSet.ofScope_ofList]
    rfl
  have hchange : (d.checkBlockTransform hangUp {} 1).event =
      .blockTransform hangUp ⟨true, some "no pictures"⟩ := by
    rw [checkBlockTransform_of_legacy d hangUp rfl rfl, RuleSet.ofScope_ofList]
    rfl
  exact ⟨rfl, rfl, (h 0).1 visitor none _ e rfl rfl, hmove, (h 1).2 hangUp {} rfl, hchange⟩

end Dispatcher
end RegionRules
