import RegionRules.Proofs.Dispatch.Effects
import RegionRules.Proofs.Dispatch.Regimes

/-!
# Bystanders

A player who cannot interact is a bystander to the match: filters are not to hear of it, and nothing
is to happen to it but a launch.  The handlers see to this in three ways.  Those for moves and uses
return before any rule is reached; those for hanging entities go on without the player; the one for
effects asks no filter and hands out no kit.

The handler for damage does none of this.  A bystander who hits a block is put to the rules that are
for early warning like anyone else, so every call but this one passes bystanders by, and this one
does as long as no such rule is concerned (`passesBy_put_iff`).
-/

set_option autoImplicit false

namespace RegionRules

variable {σ : Type}

/-! ## Calls about a player -/

/-- What a player does, or what is done to it, as it is put to a dispatcher. -/
inductive Call where
  | enterLeave (origin : Option Vec3) (target : Vec3) (e : Event)
  | coarseMove (move : CoarseMove) (status : Status)
  | flagPickup (status : Status)
  | effects (move : CoarseMove) (e : Event)
  | blockDamage (block : Block) (status : Status)
  | use (click : Interact)
  | hangingPlace (entity : HangingEntity) (status : Status)
  | hangingBreak (entity : HangingEntity) (remover : Block) (status : Status)
  | itemFrameItemRemove (target : Option HangingEntity) (damager : Block) (status : Status)
  | itemFrameRotate (target : Option HangingEntity) (status : Status)

/-- Put a call about a player to the handler for it. -/
def Dispatcher.put (d : Dispatcher σ) (p : Player σ) : Call → σ → Outcome σ
  | .enterLeave origin target e => d.checkEnterLeave (some p) origin target e
  | .coarseMove move status => d.onCoarseMove (some p) move status
  | .flagPickup status => d.onFlagPickup p status
  | .effects move e => d.applyEffects (some p) move e
  | .blockDamage block status => d.checkBlockDamage (some p) block status
  | .use click => d.checkUse (some p) click
  | .hangingPlace entity status => d.checkHangingPlace (some p) entity status
  | .hangingBreak entity remover status => d.checkHangingBreak (some p) entity remover status
  | .itemFrameItemRemove target damager status =>
    d.checkItemFrameItemRemove (some p) target damager status
  | .itemFrameRotate target status => d.checkItemFrameRotate (some p) target status

namespace Call

/-- The call may launch players, whether they can interact or not. -/
def launches : Call → Bool
  | .coarseMove .. => true
  | .effects .. => true
  | _ => false

/-- The call is about damage to a block for which a rule with a filter is to give early warning. -/
def IsWarnedEarly (rules : List (Rule σ)) (w : σ) : Call → Prop
  | .blockDamage block status =>
    status.cancelled = false ∧ ∃ rule ∈ rules, rule.scope = .blockBreak ∧
      rule.earlyWarning = true ∧ rule.filter.isSome = true ∧
      rule.region.containsBlock w block.position = true
  | _ => False

end Call

/-- The entry passes the player by: it shows no player to a filter, and requests nothing, or nothing
but a launch where the call may launch players. -/
def Entry.PassesBy (launches : Bool) : Entry σ → Prop
  | .consulted _ query _ => query.player = none
  | .requested request => launches = true ∧ ∃ velocity, request = .setVelocity velocity

/-- Every entry passes the player by. -/
def Outcome.PassesBy (launches : Bool) (o : Outcome σ) : Prop :=
  ∀ entry ∈ o.trace, entry.PassesBy launches

lemma Outcome.passesBy_unchanged (launches : Bool) (e : Event) (w : σ) :
    (unchanged e w).PassesBy launches := fun _ h => nomatch h

/-! ## Passes -/

namespace Pass

variable {pass : Pass σ}

/-- **A pass leaves no trace just when it comes to no rule that it could ask.** -/
theorem trace_run_eq_nil_iff (rules : List (Rule σ)) (e : Event) (w : σ) :
    (pass.run rules e w).trace = [] ↔
      ∀ rule ∈ rules, rule.filter = none ∨ pass.select rule w = none := by
  induction rules with
  | nil => exact iff_of_true rfl fun _ h => nomatch h
  | cons rule rules ih =>
    rw [List.forall_mem_cons]
    rcases pass.skips_or_asks rule w with hskip | ⟨filter, query, hfilter, hselect⟩
    · rw [run_skip rules e hskip, ih]
      exact (and_iff_right hskip).symm
    · have hasks : ¬ (rule.filter = none ∨ pass.select rule w = none) := by
        simp [hfilter, hselect]
      refine iff_of_false ?_ fun h => hasks h.1
      rw [run, hselect]
      simp only [Rule.decide_spec rule query e w hfilter]
      split_ifs <;> simp

/-- A pass that shows no player to filters and whose reactions leave no trace passes players by. -/
lemma passesBy_run (launches : Bool)
    (hselect : ∀ rule w query, pass.select rule w = some query → query.player = none)
    (hreact : ∀ rule e w, (pass.react rule e w).trace = []) (rules : List (Rule σ)) (e : Event)
    (w : σ) : (pass.run rules e w).PassesBy launches := by
  refine forall_mem_trace_run (fun rule w query _ => hselect rule w query) ?_ rules e w
  intro rule e w entry hentry
  rw [hreact] at hentry
  cases hentry

end Pass

namespace Dispatcher

lemma player_of_blockQuery {b : BlockPos} {query query' : Query} {rule : Rule σ} {w : σ}
    (h : blockQuery b query rule w = some query') : query'.player = query.player := by
  obtain ⟨-, rfl⟩ := blockQuery_eq_some.1 h
  rfl

section Bystander

variable (d : Dispatcher σ) {p : Player σ} {w : σ} (hout : p.canInteract w = false)

include hout

lemma active?_eq_none : Player.active? (some p) w = none := by
  rw [Player.active?, Option.filter_some, hout, if_neg Bool.false_ne_true]

/-! ## Moves and uses -/

lemma checkEnterLeave_eq_unchanged (origin : Option Vec3) (target : Vec3) (e : Event) :
    d.checkEnterLeave (some p) origin target e w = .unchanged e w := by
  rw [checkEnterLeave, active?_eq_none hout]
  exact ite_self _

lemma passesBy_checkEnterLeave (origin : Option Vec3) (target : Vec3) (e : Event) :
    (d.checkEnterLeave (some p) origin target e w).PassesBy false := by
  rw [d.checkEnterLeave_eq_unchanged hout]
  exact Outcome.passesBy_unchanged _ e w

lemma handleUse_eq_unchanged (block : Block) (instead : Option Material) (e : Event) :
    d.handleUse (some p) block instead e w = .unchanged e w := by
  rw [handleUse, active?_eq_none hout]

lemma passesBy_checkUse (click : Interact) : (d.checkUse (some p) click w).PassesBy false := by
  unfold checkUse
  dsimp only
  split_ifs
  · exact Outcome.passesBy_unchanged _ _ w
  · cases click.clicked with
    | none => exact Outcome.passesBy_unchanged _ _ w
    | some block =>
      dsimp only
      rw [d.handleUse_eq_unchanged hout]
      exact Outcome.passesBy_unchanged _ _ w

/-! ## Hanging entities -/

lemma passesBy_handleHangingPlace (launches : Bool) (block : Block) (instead : Option Material)
    (e : Event) : (d.handleHangingPlace (some p) block instead e w).PassesBy launches := by
  rw [handleHangingPlace, active?_eq_none hout]
  exact Pass.passesBy_run launches (fun _ _ _ h => player_of_blockQuery h) (fun _ _ _ => rfl) _ e w

lemma passesBy_handleHangingBreak (launches : Bool) (entity : HangingEntity) (breaker : Block)
    (e : Event) : (d.handleHangingBreak (some p) entity breaker e w).PassesBy launches := by
  rw [handleHangingBreak]
  cases entity.itemMaterial with
  | none => exact Outcome.passesBy_unchanged _ e w
  | some material =>
    simp only [active?_eq_none hout]
    exact Pass.passesBy_run launches (fun _ _ _ h => player_of_blockQuery h) (fun _ _ _ => rfl) _
      e w

lemma passesBy_checkHangingPlace (entity : HangingEntity) (status : Status) :
    (d.checkHangingPlace (some p) entity status w).PassesBy false := by
  unfold checkHangingPlace
  dsimp only
  split_ifs
  · exact Outcome.passesBy_unchanged _ _ w
  · exact passesBy_handleHangingPlace d hout false _ _ _

lemma passesBy_checkHangingBreak (entity : HangingEntity) (remover : Block) (status : Status) :
    (d.checkHangingBreak (some p) entity remover status w).PassesBy false := by
  unfold checkHangingBreak
  dsimp only
  split_ifs
  · exact Outcome.passesBy_unchanged _ _ w
  · exact passesBy_handleHangingBreak d hout false _ _ _

lemma passesBy_checkItemFrameItemRemove (target : Option HangingEntity) (damager : Block)
    (status : Status) :
    (d.checkItemFrameItemRemove (some p) target damager status w).PassesBy false := by
  unfold checkItemFrameItemRemove
  dsimp only
  split_ifs
  · exact Outcome.passesBy_unchanged _ _ w
  · cases target.filter (·.framedItem.isSome) with
    | none => exact Outcome.passesBy_unchanged _ _ w
    | some frame => exact passesBy_handleHangingBreak d hout false _ _ _

lemma passesBy_checkItemFrameRotate (target : Option HangingEntity) (status : Status) :
    (d.checkItemFrameRotate (some p) target status w).PassesBy false := by
  unfold checkItemFrameRotate
  dsimp only
  split_ifs
  · exact Outcome.passesBy_unchanged _ _ w
  · cases target.filter (·.isItemFrame) with
    | none => exact Outcome.passesBy_unchanged _ _ w
    | some frame =>
      dsimp only
      split_ifs
      · rw [d.handleUse_eq_unchanged hout]
        exact Outcome.passesBy_unchanged _ _ w
      · cases (some p).bind (·.itemInHand w) with
        | none => exact Outcome.passesBy_unchanged _ _ w
        | some item => exact passesBy_handleHangingPlace d hout false _ _ _

/-! ## Effects -/

/-- A rule on effects asks a bystander for launches only, and no filter at all. -/
lemma applyEffect_eq_request (move : CoarseMove) (query : Query) (rule : Rule σ) (e : Event) :
    ∃ velocities : List Vec3, applyEffect p move query rule e w =
      .request (some p) (velocities.map .setVelocity) e w := by
  rcases applyEffect_cases p move query rule e w with h | ⟨hcan, -⟩
  · rw [h, contribution, dues, effects, hout, Bool.false_and, if_neg Bool.false_ne_true,
      if_neg Bool.false_ne_true, List.append_nil]
    split_ifs
    · exact ⟨rule.velocity.toList, rfl⟩
    · exact ⟨[], rfl⟩
  · exact absurd (hout.symm.trans hcan) Bool.false_ne_true

variable (hlaunch : ∀ velocity w, p.canInteract w = false →
  p.canInteract (p.perform (.setVelocity velocity) w) = false)

include hlaunch

lemma canInteract_request (velocities : List Vec3) (e : Event) :
    p.canInteract (Outcome.request (some p) (velocities.map .setVelocity) e w).world = false := by
  induction velocities generalizing w with
  | nil => exact hout
  | cons velocity velocities ih => exact ih (hlaunch velocity w hout)

lemma passesBy_runEffects (move : CoarseMove) (query : Query) (rules : List (Rule σ)) (e : Event) :
    (runEffects p move query rules e w).PassesBy true := by
  induction rules generalizing e w with
  | nil => exact Outcome.passesBy_unchanged _ e w
  | cons rule rules ih =>
    obtain ⟨velocities, happly⟩ := applyEffect_eq_request hout move query rule e
    intro entry hentry
    rw [runEffects, happly, Outcome.trace_andThen, List.mem_append] at hentry
    rcases hentry with hentry | hentry
    · simp only [Outcome.request, List.map_map, List.mem_map, Function.comp_apply] at hentry
      obtain ⟨velocity, -, rfl⟩ := hentry
      exact ⟨rfl, velocity, rfl⟩
    · exact ih (canInteract_request hout hlaunch velocities e) _ entry hentry

lemma passesBy_applyEffects (move : CoarseMove) (e : Event) :
    (d.applyEffects (some p) move e w).PassesBy true := by
  rw [applyEffects]
  split_ifs
  · exact Outcome.passesBy_unchanged _ e w
  · exact passesBy_runEffects hout hlaunch move _ _ e

lemma passesBy_onCoarseMove (move : CoarseMove) (status : Status) :
    (d.onCoarseMove (some p) move status w).PassesBy true := by
  rw [onCoarseMove, d.checkEnterLeave_eq_unchanged hout, Outcome.unchanged_andThen]
  exact passesBy_applyEffects d hout hlaunch move _

end Bystander

/-! ## Damage -/

/-- The pass of the handler for damage. -/
def damagePass (d : Dispatcher σ) (p : Player σ) (block : Block) (w : σ) : Pass σ where
  select rule w' :=
    if rule.earlyWarning then
      blockQuery block.position
        { kind := .blockDamage, player := some (p.state w), block := some block } rule w'
    else none
  react := warnIfCancelled (some p)
  halts := d.halts

lemma damagePass_select {d : Dispatcher σ} {p : Player σ} {block : Block} {w w' : σ}
    {rule : Rule σ} {query : Query} :
    (d.damagePass p block w).select rule w' = some query ↔
      rule.earlyWarning = true ∧ rule.region.containsBlock w' block.position = true ∧
        query = { kind := .blockDamage, player := some (p.state w), block := some block } := by
  simp only [damagePass, Option.ite_none_right_eq_some, blockQuery_eq_some]
  rfl

/-- Damage passes no player by unless it leaves no trace. -/
lemma passesBy_damagePass_iff (d : Dispatcher σ) (p : Player σ) (block : Block) (w : σ)
    (rules : List (Rule σ)) (e : Event) :
    ((d.damagePass p block w).run rules e w).PassesBy false ↔
      ¬ ∃ rule ∈ rules, rule.earlyWarning = true ∧ rule.filter.isSome = true ∧
        rule.region.containsBlock w block.position = true := by
  -- Every question shows the player and every reaction is a warning.
  have hentries : ∀ entry ∈ ((d.damagePass p block w).run rules e w).trace,
      ¬ entry.PassesBy false := by
    refine Pass.forall_mem_trace_run ?_ ?_ rules e w
    · intro rule w' query answer hselect
      rw [(damagePass_select.1 hselect).2.2]
      exact Option.some_ne_none _
    · intro rule e w' entry hentry
      obtain ⟨request, -, rfl⟩ := List.mem_map.1 hentry
      exact fun h => Bool.false_ne_true h.1
  have hnil : ((d.damagePass p block w).run rules e w).PassesBy false ↔
      ((d.damagePass p block w).run rules e w).trace = [] := by
    constructor
    · exact fun h => List.eq_nil_iff_forall_not_mem.2 fun entry hentry =>
        hentries entry hentry (h entry hentry)
    · intro h entry hentry
      rw [h] at hentry
      cases hentry
  rw [hnil, Pass.trace_run_eq_nil_iff]
  constructor
  · rintro h ⟨rule, hmem, hearly, hfilter, hregion⟩
    rcases h rule hmem with hnone | hselect
    · rw [hnone] at hfilter
      cases hfilter
    · have hsome := (damagePass_select (d := d) (p := p) (w := w)).2 ⟨hearly, hregion, rfl⟩
      rw [hselect] at hsome
      cases hsome
  · intro h rule hmem
    refine ((d.damagePass p block w).skips_or_asks rule w).resolve_right ?_
    rintro ⟨filter, query, hfilter, hselect⟩
    obtain ⟨hearly, hregion, -⟩ := damagePass_select.1 hselect
    exact h ⟨rule, hmem, hearly, Option.isSome_of_mem hfilter, hregion⟩

lemma passesBy_checkBlockDamage_iff (d : Dispatcher σ) {rules : List (Rule σ)}
    (hrules : d.rules = .ofList rules) (p : Player σ) (block : Block) (status : Status) (w : σ) :
    (d.checkBlockDamage (some p) block status w).PassesBy false ↔
      ¬ (Call.blockDamage block status).IsWarnedEarly rules w := by
  cases hcancelled : status.cancelled with
  | true =>
    have hdamage : d.checkBlockDamage (some p) block status w =
        .unchanged (.blockDamage block status) w := if_pos hcancelled
    rw [hdamage]
    refine iff_of_true (Outcome.passesBy_unchanged _ _ w) fun h => ?_
    exact Bool.false_ne_true (h.1.symm.trans hcancelled)
  | false =>
    have hdamage : d.checkBlockDamage (some p) block status w =
        (d.damagePass p block w).run (d.rules.ofScope .blockBreak) (.blockDamage block status) w :=
      if_neg (Bool.not_eq_true _ ▸ hcancelled)
    rw [hdamage, passesBy_damagePass_iff, hrules, RuleSet.ofScope_ofList]
    simp only [Call.IsWarnedEarly, hcancelled, true_and, List.mem_filter, decide_eq_true_eq,
      and_assoc]

/-! ## All calls -/

/-- **Bystanders are passed by, but for early warning.**  Let a call be about a player who cannot
interact, and whom launches leave so.  No filter gets to see a player and nothing is asked of it but
a launch, just when the call is not about damage to a block for which some rule gives early
warning. -/
theorem passesBy_put_iff (d : Dispatcher σ) (rules : List (Rule σ))
    (hrules : d.rules = .ofList rules) (p : Player σ) (w : σ) (hout : p.canInteract w = false)
    (hlaunch : ∀ velocity w, p.canInteract w = false →
      p.canInteract (p.perform (.setVelocity velocity) w) = false) (call : Call) :
    (∀ entry ∈ (d.put p call w).trace, entry.PassesBy call.launches) ↔
      ¬ call.IsWarnedEarly rules w := by
  cases call with
  | enterLeave origin target e =>
    exact iff_of_true (passesBy_checkEnterLeave d hout origin target e) not_false
  | coarseMove move status =>
    exact iff_of_true (passesBy_onCoarseMove d hout hlaunch move status) not_false
  | flagPickup status =>
    exact iff_of_true (passesBy_checkEnterLeave d hout none _ _) not_false
  | effects move e => exact iff_of_true (passesBy_applyEffects d hout hlaunch move e) not_false
  | blockDamage block status => exact passesBy_checkBlockDamage_iff d hrules p block status w
  | use click => exact iff_of_true (passesBy_checkUse d hout click) not_false
  | hangingPlace entity status =>
    exact iff_of_true (passesBy_checkHangingPlace d hout entity status) not_false
  | hangingBreak entity remover status =>
    exact iff_of_true (passesBy_checkHangingBreak d hout entity remover status) not_false
  | itemFrameItemRemove target damager status =>
    exact iff_of_true (passesBy_checkItemFrameItemRemove d hout target damager status) not_false
  | itemFrameRotate target status =>
    exact iff_of_true (passesBy_checkItemFrameRotate d hout target status) not_false

section Guarded

/-- Looks on and does nothing else. -/
def onlooker : Player ℕ where
  id := 3
  location _ := .splat .half
  canInteract _ := false
  itemInHand _ := none
  perform _ asked := asked

/-- Nothing may be broken in the block at the origin; those who try are told at once. -/
def guarded : Rule ℕ where
  scope := .blockBreak
  region := .block ⟨0, 0, 0⟩
  filter := some countingFilter
  message := some "hands off"
  earlyWarning := true

/-- The onlooker is passed by when breaking a painting in the guarded block, which the filter is
asked about, but not when hitting the block. -/
theorem onlooker_passesBy_iff :
    let d : Dispatcher ℕ := ⟨.ofList [guarded], true, true, none⟩
    let block : Block := ⟨⟨0, 0, 0⟩, .painting⟩
    onlooker.canInteract 1 = false ∧
      (∀ entry ∈ (d.put onlooker (.hangingBreak ⟨block, .painting⟩ block {}) 1).trace,
        entry.PassesBy false) ∧
      ¬ ∀ entry ∈ (d.put onlooker (.blockDamage block {}) 1).trace, entry.PassesBy false := by
  intro d block
  have h := passesBy_put_iff d [guarded] rfl onlooker 1 rfl fun _ _ h => h
  have hwarned : (Call.blockDamage block {}).IsWarnedEarly [guarded] 1 :=
    ⟨rfl, guarded, List.mem_singleton_self _, rfl, rfl, rfl, by decide +kernel⟩
  exact ⟨rfl, (h (.hangingBreak ⟨block, .painting⟩ block {})).2 not_false,
    fun hpasses => (h (.blockDamage block {})).1 hpasses hwarned⟩

/-- The onlooker hits the guarded block: the filter sees who did it, and the onlooker is told
off. -/
theorem onlooker_warned :
    let d : Dispatcher ℕ := ⟨.ofList [guarded], true, true, none⟩
    let block : Block := ⟨⟨0, 0, 0⟩, .painting⟩
    onlooker.canInteract 1 = false ∧
      (d.put onlooker (.blockDamage block {}) 1).trace =
        [.consulted guarded
          { kind := .blockDamage, player := some (onlooker.state 1), block := some block } .deny,
          .requested (.warn "hands off")] := by
  intro d block
  have hscope : d.rules.ofScope .blockBreak = [guarded] := RuleSet.ofScope_ofList _ _
  have hput : d.put onlooker (.blockDamage block {}) 1 =
      (d.damagePass onlooker block 1).run (d.rules.ofScope .blockBreak) (.blockDamage block {}) 1 :=
    rfl
  have hregion : guarded.region.containsBlock 1 block.position = true := by decide +kernel
  refine ⟨rfl, ?_⟩
  rw [hput, hscope, Pass.run, damagePass_select.2 ⟨rfl, hregion, rfl⟩]
  rfl

end Guarded

end Dispatcher
end RegionRules
