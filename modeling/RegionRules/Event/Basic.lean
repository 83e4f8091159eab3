import RegionRules.Rule.Query

/-!
# Events

The happenings of a match that rules decide.  An event carries what happened and how it stands:
whether it is cancelled, and for some events the message of the rule that denied it.

A right-click stands differently.  It has two halves, the use of the item and the use of the
block, and counts as cancelled while the use of the block is denied.
-/

set_option autoImplicit false

namespace RegionRules

/-- How most events stand. -/
structure Status where
  cancelled : Bool := false
  /-- Message of the denial, where the event keeps it. -/
  message : Option String := none
  deriving DecidableEq

/-! ## What happens -/

/-- A player moves from one block to another. -/
structure CoarseMove where
  origin : Vec3
  target : Vec3
  deriving DecidableEq

/-- Why a block changes. -/
inductive TransformCause where
  /-- A player places a block against another. -/
  | place (against : Block)
  /-- A player empties a bucket onto a block. -/
  | bucketEmpty (clicked : Block)
  | explosion
  | other
  deriving DecidableEq

/-- The block that the new block is placed against. -/
def TransformCause.against? : TransformCause → Option Block
  | .place against => some against
  | .bucketEmpty clicked => some clicked
  | .explosion => none
  | .other => none

/-- A block changes. -/
structure BlockTransform where
  old : Block
  new : Block
  cause : TransformCause
  /-- The player behind the change, if known. -/
  actor : Option PlayerState := none
  deriving DecidableEq

namespace BlockTransform

/-- There was a block before the change. -/
def isBreak (t : BlockTransform) : Bool := !t.old.material.isAir

/-- There is a block after the change. -/
def isPlace (t : BlockTransform) : Bool := !t.new.material.isAir

end BlockTransform

/-- What becomes of one half of a right-click. -/
inductive UseResult where
  | allow
  | default
  | deny
  deriving DecidableEq

/-- A denial turned into the default. -/
def UseResult.lifted : UseResult → UseResult
  | .deny => .default
  | other => other

/-- How a player clicks. -/
inductive InteractAction where
  | leftClickAir
  | leftClickBlock
  | rightClickAir
  | rightClickBlock
  | physical
  deriving DecidableEq

/-- A player clicks, possibly on a block. -/
structure Interact where
  action : InteractAction
  clicked : Option Block
  useItem : UseResult := .default
  useBlock : UseResult := .default
  deriving DecidableEq

namespace Interact

/-- The use of the block is denied. -/
def isCancelled (i : Interact) : Bool := i.useBlock == .deny

/-- Cancelling denies both halves; the reverse lifts the denial of either. -/
def setCancelled (cancelled : Bool) (i : Interact) : Interact :=
  if cancelled then { i with useItem := .deny, useBlock := .deny }
  else { i with useItem := i.useItem.lifted, useBlock := i.useBlock.lifted }

end Interact

/-- What hangs on the face of a block. -/
inductive HangingKind where
  | painting
  | itemFrame (item : Option Material)
  | leashKnot
  /-- Something that has no item. -/
  | other
  deriving DecidableEq

/-- Something hanging, and the block it occupies. -/
structure HangingEntity where
  block : Block
  kind : HangingKind
  deriving DecidableEq

namespace HangingEntity

/-- Material of the item that the entity drops as. -/
def itemMaterial (h : HangingEntity) : Option Material :=
  match h.kind with
  | .painting => some .painting
  | .itemFrame _ => some .itemFrame
  | .leashKnot => some .lead
  | .other => none

/-- The item in an item frame. -/
def framedItem (h : HangingEntity) : Option Material :=
  match h.kind with
  | .itemFrame item => item
  | _ => none

/-- The entity is an item frame. -/
def isItemFrame (h : HangingEntity) : Bool :=
  match h.kind with
  | .itemFrame _ => true
  | _ => false

end HangingEntity

/-! ## Events -/

/-- An event and how it stands. -/
inductive Event where
  | coarseMove (move : CoarseMove) (status : Status)
  /-- A player picks up a flag. -/
  | flagPickup (status : Status)
  | blockTransform (change : BlockTransform) (status : Status)
  /-- A block is updated by the world. -/
  | blockPhysics (block : Block) (status : Status)
  /-- A player starts to break a block. -/
  | blockDamage (block : Block) (status : Status)
  | interact (click : Interact)
  /-- Something is hung up. -/
  | hangingPlace (entity : HangingEntity) (status : Status)
  /-- Something hanging is broken by an entity that stands in a block. -/
  | hangingBreak (entity : HangingEntity) (remover : Block) (status : Status)
  /-- An entity, perhaps something hanging, is damaged by one that stands in a block. -/
  | entityDamage (target : Option HangingEntity) (damager : Block) (status : Status)
  /-- A player right-clicks an entity, perhaps something hanging. -/
  | interactEntity (target : Option HangingEntity) (status : Status)
  deriving DecidableEq

namespace Event

/-- The kind of an event. -/
def kind : Event → EventKind
  | .coarseMove .. => .coarseMove
  | .flagPickup .. => .flagPickup
  | .blockTransform .. => .blockTransform
  | .blockPhysics .. => .blockPhysics
  | .blockDamage .. => .blockDamage
  | .interact .. => .interact
  | .hangingPlace .. => .hangingPlace
  | .hangingBreak .. => .hangingBreak
  | .entityDamage .. => .entityDamage
  | .interactEntity .. => .interactEntity

/-- How an event stands; a right-click has no status. -/
def status? : Event → Option Status
  | .coarseMove _ s => some s
  | .flagPickup s => some s
  | .blockTransform _ s => some s
  | .blockPhysics _ s => some s
  | .blockDamage _ s => some s
  | .interact _ => none
  | .hangingPlace _ s => some s
  | .hangingBreak _ _ s => some s
  | .entityDamage _ _ s => some s
  | .interactEntity _ s => some s

/-- The event with another status; a right-click stays as it is. -/
def mapStatus (f : Status → Status) : Event → Event
  | .coarseMove m s => .coarseMove m (f s)
  | .flagPickup s => .flagPickup (f s)
  | .blockTransform t s => .blockTransform t (f s)
  | .blockPhysics b s => .blockPhysics b (f s)
  | .blockDamage b s => .blockDamage b (f s)
  | .interact i => .interact i
  | .hangingPlace h s => .hangingPlace h (f s)
  | .hangingBreak h b s => .hangingBreak h b (f s)
  | .entityDamage h b s => .entityDamage h b (f s)
  | .interactEntity h s => .interactEntity h (f s)

/-- Moves and block changes keep the message of a denial. -/
def keepsMessage : Event → Bool
  | .coarseMove .. => true
  | .blockTransform .. => true
  | _ => false

/-- The event does not go ahead. -/
def isCancelled : Event → Bool
  | .interact i => i.isCancelled
  | e => e.status?.any (·.cancelled)

/-- Cancel an event, or let it go ahead, which also clears the message that it keeps. -/
def setCancelled (cancelled : Bool) : Event → Event
  | .interact i => .interact (i.setCancelled cancelled)
  | e => e.mapStatus fun s =>
    ⟨cancelled, if e.keepsMessage && !cancelled then none else s.message⟩

/-- Cancel an event, with a message if it keeps one. -/
def deny (message : Option String) : Event → Event
  | .interact i => .interact (i.setCancelled true)
  | e => e.mapStatus fun s => ⟨true, if e.keepsMessage then message else s.message⟩

/-- What an answer does to an event. -/
def apply (answer : Answer) (message : Option String) (e : Event) : Event :=
  match answer with
  | .allow => e.setCancelled false
  | .deny => e.deny message
  | .abstain => e

end Event

end RegionRules
