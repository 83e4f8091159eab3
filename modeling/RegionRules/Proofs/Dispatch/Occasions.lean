import RegionRules.Proofs.Dispatch.Regimes

/-!
# Occasions

An occasion is anything that is put to a dispatcher.  Its handler consults the rules of certain
scopes, which depend on the event and for block changes on the regime (`Occasion.scopes`), and none
if the event is already cancelled.

The occasions of damage, use and hanging entities are of one scope at most.  Two dispatchers that
walk the rules of that scope alike do the same on them, whatever their other rules are
(`Dispatcher.handle_eq_of_walksAlike`).
-/

set_option autoImplicit false

namespace RegionRules

variable {σ : Type}

/-- Anything that is put to a dispatcher, with the player whom it is about, if there is one. -/
inductive Occasion (σ : Type) where
  | enterLeave (player : Option (Player σ)) (origin : Option Vec3) (target : Vec3) (e : Event)
  | coarseMove (player : Option (Player σ)) (move : CoarseMove) (status : Status)
  | flagPickup (carrier : Player σ) (status : Status)
  | effects (player : Option (Player σ)) (move : CoarseMove) (e : Event)
  | blockTransform (change : BlockTransform) (status : Status)
  | blockPhysics (block : Block) (status : Status)
  | blockDamage (player : Option (Player σ)) (block : Block) (status : Status)
  | use (player : Option (Player σ)) (click : Interact)
  | hangingPlace (player : Option (Player σ)) (entity : HangingEntity) (status : Status)
  | hangingBreak (player : Option (Player σ)) (entity : HangingEntity) (remover : Block)
      (status : Status)
  | itemFrameItemRemove (player : Option (Player σ)) (target : Option HangingEntity)
      (damager : Block) (status : Status)
  | itemFrameRotate (player : Option (Player σ)) (target : Option HangingEntity) (status : Status)

/-- Put an occasion to the handler for it. -/
def Dispatcher.handle (d : Dispatcher σ) : Occasion σ → σ → Outcome σ
  | .enterLeave player origin target e => d.checkEnterLeave player origin target e
  | .coarseMove player move status => d.onCoarseMove player move status
  | .flagPickup carrier status => d.onFlagPickup carrier status
  | .effects player move e => d.applyEffects player move e
  | .blockTransform change status => d.checkBlockTransform change status
  | .blockPhysics block status => d.checkBlockPhysics block status
  | .blockDamage player block status => d.checkBlockDamage player block status
  | .use player click => d.checkUse player click
  | .hangingPlace player entity status => d.checkHangingPlace player entity status
  | .hangingBreak player entity remover status => d.checkHangingBreak player entity remover status
  | .itemFrameItemRemove player target damager status =>
    d.checkItemFrameItemRemove player target damager status
  | .itemFrameRotate player target status => d.checkItemFrameRotate player target status

namespace Occasion

/-- The event of an occasion as it is put to the dispatcher. -/
def event : Occasion σ → Event
  | .enterLeave _ _ _ e => e
  | .coarseMove _ move status => .coarseMove move status
  | .flagPickup _ status => .flagPickup status
  | .effects _ _ e => e
  | .blockTransform change status => .blockTransform change status
  | .blockPhysics block status => .blockPhysics block status
  | .blockDamage _ block status => .blockDamage block status
  | .use _ click => .interact click
  | .hangingPlace _ entity status => .hangingPlace entity status
  | .hangingBreak _ entity remover status => .hangingBreak entity remover status
  | .itemFrameItemRemove _ target damager status => .entityDamage target damager status
  | .itemFrameRotate _ target status => .interactEntity target status

/-- The scopes that a block change is of. -/
def changeScopes (priority : Bool) (change : BlockTransform) : List Scope :=
  if priority then
    (if change.isBreak then [.blockBreak] else []) ++
      (if change.isPlace then [.blockPlace] else []) ++
      (if change.cause.against?.isSome then [.blockPlaceAgainst] else [])
  else [change.legacyScope]

/-- The scopes that an occasion is of while its event is not cancelled. -/
def openScopes (priority : Bool) : Occasion σ → List Scope
  | .enterLeave .. | .flagPickup .. => [.playerEnter, .playerLeave]
  | .coarseMove .. => [.playerEnter, .playerLeave, .effect]
  | .effects .. => [.effect]
  | .blockTransform change _ => changeScopes priority change
  | .blockPhysics .. => [.blockPhysics]
  | .blockDamage .. => [.blockBreak]
  | .use _ click =>
    if click.action = .rightClickBlock ∧ click.clicked.isSome = true then [.use] else []
  | .hangingPlace .. => [.blockPlace]
  | .hangingBreak _ entity _ _ => if entity.itemMaterial.isSome then [.blockBreak] else []
  | .itemFrameItemRemove _ target _ _ =>
    if target.any (·.framedItem.isSome) then [.blockBreak] else []
  | .itemFrameRotate _ target _ =>
    match target.filter (·.isItemFrame) with
    | none => []
    | some frame => if frame.framedItem.isSome then [.use] else [.blockPlace]

/-- The scopes whose rules are consulted on an occasion. -/
def scopes (priority : Bool) (occasion : Occasion σ) : List Scope :=
  if occasion.event.isCancelled then [] else occasion.openScopes priority

lemma scopes_of_open {priority : Bool} {occasion : Occasion σ}
    (h : occasion.event.isCancelled = false) :
    occasion.scopes priority = occasion.openScopes priority :=
  if_neg (Bool.not_eq_true _ ▸ h)

/-- The occasion is of damage, use or something hanging: its walk ends at a decision of a rule that
halts. -/
def EndsByHalts : Occasion σ → Prop
  | .blockDamage .. | .use .. | .hangingPlace .. | .hangingBreak .. | .itemFrameItemRemove .. |
    .itemFrameRotate .. => True
  | _ => False

end Occasion

namespace Dispatcher

/-- The rules that a block change concerns are of its scopes. -/
lemma ChangeConcern.mem_changeScopes {actor : Option PlayerState} {change : BlockTransform}
    {rule : Rule σ} {w : σ} {query : Query} (h : ChangeConcern actor change rule w query) :
    rule.scope ∈ Occasion.changeScopes true change := by
  rcases h with ⟨hscope, hbreak, -⟩ | ⟨hscope, hplace, -⟩ | ⟨block, hscope, hcause, -⟩
  · simp [Occasion.changeScopes, hscope, hbreak]
  · simp [Occasion.changeScopes, hscope, hplace]
  · simp [Occasion.changeScopes, hscope, hcause]

/-- Nothing is done on an occasion whose event is cancelled. -/
theorem handle_of_cancelled (d : Dispatcher σ) {occasion : Occasion σ}
    (h : occasion.event.isCancelled = true) (w : σ) :
    d.handle occasion w = .unchanged occasion.event w := by
  cases occasion with
  | coarseMove player move status =>
    have hmove : d.checkEnterLeave player (some move.origin) move.target (.coarseMove move status)
        w = .unchanged (.coarseMove move status) w := if_pos h
    exact (congrArg (Outcome.andThen · _) hmove).trans (if_pos h)
  | use player click => exact if_pos (Bool.or_eq_true_iff.2 (.inl h))
  | _ => exact if_pos h

/-! ## Occasions of one scope -/

/-- Two dispatchers do the same with the rules of a scope, each ending its walks in its own way. -/
def WalksAlike (d d' : Dispatcher σ) (scope : Scope) : Prop :=
  ∀ (select : Rule σ → σ → Option Query) (react : Rule σ → Event → σ → Outcome σ) (e : Event)
    (w : σ), { select, react, halts := d.halts : Pass σ }.run (d.rules.ofScope scope) e w =
      { select, react, halts := d'.halts : Pass σ }.run (d'.rules.ofScope scope) e w

variable {d d' : Dispatcher σ}

lemma handleUse_eq_of_walksAlike (h : d.WalksAlike d' .use) (player : Option (Player σ))
    (block : Block) (instead : Option Material) (e : Event) (w : σ) :
    d.handleUse player block instead e w = d'.handleUse player block instead e w := by
  unfold handleUse
  cases Player.active? player w with
  | none => rfl
  | some p => exact h _ _ e w

lemma handleHangingBreak_eq_of_walksAlike {entity : HangingEntity}
    (h : entity.itemMaterial.isSome = true → d.WalksAlike d' .blockBreak)
    (player : Option (Player σ)) (breaker : Block) (e : Event) (w : σ) :
    d.handleHangingBreak player entity breaker e w =
      d'.handleHangingBreak player entity breaker e w := by
  unfold handleHangingBreak
  cases hmaterial : entity.itemMaterial with
  | none => rfl
  | some material => exact h (by rw [hmaterial]; rfl) _ _ e w

variable {priority : Bool}

lemma checkUse_eq_of_walksAlike (player : Option (Player σ)) (click : Interact)
    (h : ∀ scope ∈ (Occasion.use player click).openScopes priority, d.WalksAlike d' scope)
    (w : σ) : d.checkUse player click w = d'.checkUse player click w := by
  unfold checkUse
  dsimp only
  split_ifs with hgate
  · rfl
  · cases hclicked : click.clicked with
    | none => rfl
    | some block =>
      have haction : click.action = .rightClickBlock := by
        by_contra haction
        exact hgate (by simp [haction])
      refine handleUse_eq_of_walksAlike (h .use ?_) player block none _ w
      simp [Occasion.openScopes, haction, hclicked]

lemma checkItemFrameItemRemove_eq_of_walksAlike (player : Option (Player σ))
    (target : Option HangingEntity) (damager : Block) (status : Status)
    (h : ∀ scope ∈ (Occasion.itemFrameItemRemove player target damager status).openScopes priority,
      d.WalksAlike d' scope) (w : σ) :
    d.checkItemFrameItemRemove player target damager status w =
      d'.checkItemFrameItemRemove player target damager status w := by
  unfold checkItemFrameItemRemove
  dsimp only
  split_ifs
  · rfl
  · cases htarget : target.filter (·.framedItem.isSome) with
    | none => rfl
    | some frame =>
      obtain ⟨htarget, hitem⟩ := Option.filter_eq_some_iff.1 htarget
      refine handleHangingBreak_eq_of_walksAlike (fun _ => h .blockBreak ?_) player damager _ w
      simp [Occasion.openScopes, htarget, hitem]

lemma checkItemFrameRotate_eq_of_walksAlike (player : Option (Player σ))
    (target : Option HangingEntity) (status : Status)
    (h : ∀ scope ∈ (Occasion.itemFrameRotate player target status).openScopes priority,
      d.WalksAlike d' scope) (w : σ) :
    d.checkItemFrameRotate player target status w =
      d'.checkItemFrameRotate player target status w := by
  unfold checkItemFrameRotate
  dsimp only
  split_ifs
  · rfl
  · unfold Occasion.openScopes at h
    cases htarget : target.filter (·.isItemFrame) with
    | none => rfl
    | some frame =>
      simp only [htarget] at h
      dsimp only
      split_ifs with hitem
      · rw [if_pos hitem] at h
        exact handleUse_eq_of_walksAlike (h .use (List.mem_singleton_self _)) player _ _ _ w
      · rw [if_neg hitem] at h
        cases player.bind (·.itemInHand w) with
        | none => rfl
        | some item => exact h .blockPlace (List.mem_singleton_self _) _ _ _ w

/-- **On damage, use and hanging entities only the rules of the occasion's scope matter.** -/
theorem handle_eq_of_walksAlike (priority : Bool) {occasion : Occasion σ}
    (hone : occasion.EndsByHalts)
    (h : ∀ scope ∈ occasion.openScopes priority, d.WalksAlike d' scope) (w : σ) :
    d.handle occasion w = d'.handle occasion w := by
  cases occasion with
  | blockDamage player block status =>
    refine ite_congr rfl (fun _ => rfl) fun _ => ?_
    cases player with
    | none => rfl
    | some p => exact h .blockBreak (List.mem_singleton_self _) _ _ _ w
  | use player click => exact checkUse_eq_of_walksAlike player click h w
  | hangingPlace player entity status =>
    refine ite_congr rfl (fun _ => rfl) fun _ => ?_
    exact h .blockPlace (List.mem_singleton_self _) _ _ _ w
  | hangingBreak player entity remover status =>
    refine ite_congr rfl (fun _ => rfl) fun _ => ?_
    refine handleHangingBreak_eq_of_walksAlike (fun hmaterial => ?_) player remover _ w
    exact h .blockBreak (by simp [Occasion.openScopes, hmaterial])
  | itemFrameItemRemove player target damager status =>
    exact checkItemFrameItemRemove_eq_of_walksAlike player target damager status h w
  | itemFrameRotate player target status =>
    exact checkItemFrameRotate_eq_of_walksAlike player target status h w
  | _ => exact hone.elim

end Dispatcher

end RegionRules
