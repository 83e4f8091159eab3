import RegionRules.Dispatch.Pass
import RegionRules.Rule.RuleSet
import RegionRules.Settings.Settings

/-!
# The dispatcher

Puts the events of a match to its rules, with one handler for each kind of event.

There are two regimes.  In the *priority* regime one pass over all rules, in order of declaration,
serves every scope that concerns the event, and the first decision ends it.  In the *legacy*
regime each scope gets a pass of its own, a later pass may decide otherwise than an earlier one,
and a decision ends its pass only if the rule is itself priority-aware.  The handlers for damage,
use and hanging entities serve one scope; they end at a decision in the priority regime or of a
priority-aware rule.

Every handler leaves an event alone that is already cancelled.
-/

set_option autoImplicit false

namespace RegionRules

/-- The rules of a match and how they are evaluated. -/
structure Dispatcher (σ : Type) where
  rules : RuleSet σ
  usesPriority : Bool
  /-- Block changes by explosions keep the player behind them. -/
  ownedExplosions : Bool := true
  maxBuildHeight : Option Int32 := none

namespace Dispatcher

variable {σ : Type}

/-- The dispatcher for rules under the settings of a match. -/
def ofSettings (rules : RuleSet σ) (s : Settings) : Dispatcher σ :=
  ⟨rules, s.usesPriority, s.ownedExplosions, s.maxBuildHeight⟩

/-- A decision of the rule ends a pass of the damage, use and hanging handlers. -/
def halts (d : Dispatcher σ) (rule : Rule σ) : Bool := d.usesPriority || rule.priorityAware

/-! ## Moves -/

/-- The query for a rule whose region contains a block. -/
def blockQuery (b : BlockPos) (query : Query) (rule : Rule σ) (w : σ) : Option Query :=
  if rule.region.containsBlock w b then some query else none

/-- Put an event of a player who gets from one place to another to the rules on entry and exit.  An
unknown origin counts as outside every region for entry and inside for exit. -/
def checkEnterLeave (d : Dispatcher σ) (player : Option (Player σ)) (origin : Option Vec3)
    (target : Vec3) (e : Event) (w : σ) : Outcome σ :=
  if e.isCancelled then .unchanged e w
  else match Player.active? player w with
    | none => .unchanged e w
    | some p =>
      let query : Query := { kind := e.kind, player := some (p.state w) }
      let select (rule : Rule σ) (w : σ) : Option Query :=
        let crosses := match rule.scope with
          | .playerEnter => rule.region.enters w origin target
          | .playerLeave => rule.region.exits w origin target
          | _ => false
        if crosses then some query else none
      if d.usesPriority then
        { select, halts := fun _ => true : Pass σ }.run d.rules.toList e w
      else
        let pass : Pass σ := { select, halts := (·.priorityAware) }
        (pass.run (d.rules.ofScope .playerEnter) e w).andThen
          (pass.run (d.rules.ofScope .playerLeave))

/-- What a rule does to a player who crosses its region's boundary: velocity and kit on entry, a
lent kit taken back on exit.  Only velocity is for players who cannot interact. -/
def effects (rule : Rule σ) (enters exits canInteract : Bool) : List Request :=
  (if enters then rule.velocity.toList.map .setVelocity else []) ++
    (if canInteract then
      (if enters then rule.kit.toList.map (.applyKit · false) else []) ++
        (if exits && rule.lendKit then rule.kit.toList.map .removeKit else [])
    else [])

/-- Put a move to one rule on effects.  The filter is asked only of players who can interact, and
only its denial counts. -/
def applyEffect (p : Player σ) (move : CoarseMove) (query : Query) (rule : Rule σ) (e : Event)
    (w : σ) : Outcome σ :=
  let enters := rule.region.enters w (some move.origin) move.target
  let exits := rule.region.exits w (some move.origin) move.target
  if rule.hasEffects && (enters || exits) then
    let canInteract := p.canInteract w
    let requests := effects rule enters exits canInteract
    match if canInteract then rule.filter else none with
    | none => .request (some p) requests e w
    | some filter =>
      let (answer, w) := filter.ask query w
      let asked : Outcome σ := ⟨e, w, [.consulted rule query answer]⟩
      if answer = .deny then asked else asked.andThen (.request (some p) requests)
  else .unchanged e w

/-- Put a move to rules on effects, in order. -/
def runEffects (p : Player σ) (move : CoarseMove) (query : Query) :
    List (Rule σ) → Event → σ → Outcome σ
  | [], e, w => .unchanged e w
  | rule :: rules, e, w =>
    (applyEffect p move query rule e w).andThen (runEffects p move query rules)

/-- Give a player the effects of the regions that a move enters or exits. -/
def applyEffects (d : Dispatcher σ) (player : Option (Player σ)) (move : CoarseMove) (e : Event)
    (w : σ) : Outcome σ :=
  if e.isCancelled then .unchanged e w
  else match player with
    | none => .unchanged e w
    | some p =>
      let query : Query := { kind := e.kind, player := some (p.state w) }
      runEffects p move query (d.rules.ofScope .effect) e w

/-- A player moves from block to block: rules on entry and exit, then effects. -/
def onCoarseMove (d : Dispatcher σ) (player : Option (Player σ)) (move : CoarseMove)
    (status : Status) (w : σ) : Outcome σ :=
  (d.checkEnterLeave player (some move.origin) move.target (.coarseMove move status) w).andThen
    (d.applyEffects player move)

/-- A player picks up a flag: a move to where the player is, from nowhere. -/
def onFlagPickup (d : Dispatcher σ) (carrier : Player σ) (status : Status) (w : σ) : Outcome σ :=
  d.checkEnterLeave (some carrier) none (carrier.location w) (.flagPickup status) w

/-! ## Block changes -/

/-- The player behind a block change.  Unless explosions are owned, the world is behind theirs. -/
def actor (d : Dispatcher σ) (change : BlockTransform) : Option PlayerState :=
  if !d.ownedExplosions && change.cause == .explosion then none else change.actor

/-- A block changes.  The priority regime serves the scopes of breaking the old block, placing the
new one and placing against another; the legacy regime serves placing, or else breaking, at the
new block. -/
def checkBlockTransform (d : Dispatcher σ) (change : BlockTransform) (status : Status) (w : σ) :
    Outcome σ :=
  let e : Event := .blockTransform change status
  if e.isCancelled then .unchanged e w
  else
    let query (b : Block) : Query :=
      { kind := e.kind, player := d.actor change, block := some b }
    let about (b : Block) (rule : Rule σ) (w : σ) : Option Query :=
      blockQuery b.position (query b) rule w
    if d.usesPriority then
      let select (rule : Rule σ) (w : σ) : Option Query :=
        match rule.scope with
        | .blockBreak => if change.isBreak then about change.old rule w else none
        | .blockPlace => if change.isPlace then about change.new rule w else none
        | .blockPlaceAgainst => change.cause.against?.bind fun b => about b rule w
        | _ => none
      { select, halts := fun _ => true : Pass σ }.run d.rules.toList e w
    else
      let (scope, block) :=
        if change.isPlace then (Scope.blockPlace, change.new) else (.blockBreak, change.old)
      { select := blockQuery change.new.position (query block), halts := (·.priorityAware) :
        Pass σ }.run (d.rules.ofScope scope) e w

/-- The world updates a block; no player is behind it, and the first decision ends the pass. -/
def checkBlockPhysics (d : Dispatcher σ) (block : Block) (status : Status) (w : σ) : Outcome σ :=
  let e : Event := .blockPhysics block status
  if e.isCancelled then .unchanged e w
  else
    { select := blockQuery block.position { kind := e.kind, block := some block }
      halts := fun _ => true : Pass σ }.run (d.rules.ofScope .blockPhysics) e w

/-- A player starts to break a block: rules on breaking that are for early warning. -/
def checkBlockDamage (d : Dispatcher σ) (player : Option (Player σ)) (block : Block)
    (status : Status) (w : σ) : Outcome σ :=
  let e : Event := .blockDamage block status
  if e.isCancelled then .unchanged e w
  else match player with
    | none => .unchanged e w
    | some p =>
      let query : Query := { kind := e.kind, player := some (p.state w), block := some block }
      { select := fun rule w =>
          if rule.earlyWarning then blockQuery block.position query rule w else none
        react := warnIfCancelled (some p)
        halts := d.halts : Pass σ }.run (d.rules.ofScope .blockBreak) e w

/-! ## Use and hanging entities -/

/-- A player uses a block, or something of a material at it. -/
def handleUse (d : Dispatcher σ) (player : Option (Player σ)) (block : Block)
    (instead : Option Material) (e : Event) (w : σ) : Outcome σ :=
  match Player.active? player w with
  | none => .unchanged e w
  | some p =>
    let query : Query :=
      { kind := e.kind, player := some (p.state w), block := some block, instead }
    { select := blockQuery block.position query
      react := allowItemUse (some p)
      halts := d.halts : Pass σ }.run (d.rules.ofScope .use) e w

/-- Something of a material is hung up, or put into a frame, at a block. -/
def handleHangingPlace (d : Dispatcher σ) (player : Option (Player σ)) (block : Block)
    (instead : Option Material) (e : Event) (w : σ) : Outcome σ :=
  let player := Player.active? player w
  let query : Query :=
    { kind := e.kind, player := player.map (·.state w), block := some block, instead }
  { select := blockQuery block.position query
    react := warnIfCancelled player
    halts := d.halts : Pass σ }.run (d.rules.ofScope .blockPlace) e w

/-- Something hanging is broken, or emptied, by someone who stands in a block; nothing is checked
if it has no item. -/
def handleHangingBreak (d : Dispatcher σ) (player : Option (Player σ)) (entity : HangingEntity)
    (breaker : Block) (e : Event) (w : σ) : Outcome σ :=
  match entity.itemMaterial with
  | none => .unchanged e w
  | some material =>
    let player := Player.active? player w
    let query : Query :=
      { kind := e.kind, player := player.map (·.state w), block := some breaker,
        instead := some material }
    { select := blockQuery breaker.position query
      react := warnIfCancelled player
      halts := d.halts : Pass σ }.run (d.rules.ofScope .blockBreak) e w

/-- A player clicks; a right-click on a block is a use of the block. -/
def checkUse (d : Dispatcher σ) (player : Option (Player σ)) (click : Interact) (w : σ) :
    Outcome σ :=
  let e : Event := .interact click
  if e.isCancelled || click.action != .rightClickBlock then .unchanged e w
  else match click.clicked with
    | none => .unchanged e w
    | some block => d.handleUse player block none e w

/-- Something is hung up. -/
def checkHangingPlace (d : Dispatcher σ) (player : Option (Player σ)) (entity : HangingEntity)
    (status : Status) (w : σ) : Outcome σ :=
  let e : Event := .hangingPlace entity status
  if e.isCancelled then .unchanged e w
  else d.handleHangingPlace player entity.block entity.itemMaterial e w

/-- Something hanging is broken by an entity. -/
def checkHangingBreak (d : Dispatcher σ) (player : Option (Player σ)) (entity : HangingEntity)
    (remover : Block) (status : Status) (w : σ) : Outcome σ :=
  let e : Event := .hangingBreak entity remover status
  if e.isCancelled then .unchanged e w
  else d.handleHangingBreak player entity remover e w

/-- An entity is damaged; popping the item out of a frame is a break. -/
def checkItemFrameItemRemove (d : Dispatcher σ) (player : Option (Player σ))
    (target : Option HangingEntity) (damager : Block) (status : Status) (w : σ) : Outcome σ :=
  let e : Event := .entityDamage target damager status
  if e.isCancelled then .unchanged e w
  else match target.filter (·.framedItem.isSome) with
    | none => .unchanged e w
    | some frame => d.handleHangingBreak player frame damager e w

/-- A player right-clicks an entity; on a frame this turns its item, a use, or puts the item in
hand into it, a placement. -/
def checkItemFrameRotate (d : Dispatcher σ) (player : Option (Player σ))
    (target : Option HangingEntity) (status : Status) (w : σ) : Outcome σ :=
  let e : Event := .interactEntity target status
  if e.isCancelled then .unchanged e w
  else match target.filter (·.isItemFrame) with
    | none => .unchanged e w
    | some frame =>
      if frame.framedItem.isSome then d.handleUse player frame.block frame.itemMaterial e w
      else match player.bind (·.itemInHand w) with
        | none => .unchanged e w
        | some item => d.handleHangingPlace player frame.block (some item) e w

end Dispatcher

end RegionRules
