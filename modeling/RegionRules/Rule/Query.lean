import RegionRules.Space.BlockPos

/-!
# Queries

What a rule's filter gets to see of an event: its kind, and where they play a part the acting
player, the block and the material.  A filter allows, denies or abstains.
-/

set_option autoImplicit false

namespace RegionRules

/-! ## Blocks and players -/

/-- Identifies the material of a block or item. -/
structure Material where
  id : UInt16
  deriving DecidableEq, Inhabited

namespace Material

/-- The material of no block. -/
def air : Material := ⟨0⟩

/-- The item of a painting. -/
def painting : Material := ⟨321⟩

/-- The item of an item frame. -/
def itemFrame : Material := ⟨389⟩

/-- The item of a leash. -/
def lead : Material := ⟨420⟩

/-- The material is air. -/
def isAir (m : Material) : Bool := m == air

end Material

/-- A block as it stands: where it is and what it is made of. -/
structure Block where
  position : BlockPos
  material : Material
  deriving DecidableEq, Inhabited

/-- The centre of the block. -/
def Block.center (b : Block) : Vec3 := b.position.center

/-- Identifies a player of the match. -/
abbrev PlayerId := UInt64

/-- A player as it stands at the time of an event. -/
structure PlayerState where
  id : PlayerId
  location : Vec3
  deriving DecidableEq, Inhabited

/-- Equality of players, their locations compared as numbers. -/
def PlayerState.same (a b : PlayerState) : Bool := a.id == b.id && a.location.same b.location

/-! ## Queries -/

/-- The kinds of events. -/
inductive EventKind where
  | coarseMove
  | flagPickup
  | blockTransform
  | blockPhysics
  | blockDamage
  | interact
  | hangingPlace
  | hangingBreak
  | entityDamage
  | interactEntity
  deriving DecidableEq

/-- What a filter is asked about. -/
structure Query where
  kind : EventKind
  player : Option PlayerState := none
  block : Option Block := none
  /-- Takes the place of the block's own material. -/
  instead : Option Material := none
  deriving DecidableEq

namespace Query

/-- The material in question: the one given instead, else the block's own. -/
def material (q : Query) : Option Material :=
  match q.instead with
  | some m => some m
  | none => q.block.map (·.material)

/-- Equality of queries, locations compared as numbers. -/
def same (a b : Query) : Bool :=
  let samePlayer := match a.player, b.player with
    | some p, some q => p.same q
    | none, none => true
    | _, _ => false
  a.kind == b.kind && samePlayer && a.block == b.block && a.instead == b.instead

end Query

/-- What a filter says of a query. -/
inductive Answer where
  | allow
  | deny
  | abstain
  deriving DecidableEq

namespace Answer

/-- The answer settles the event, either way. -/
def isDecisive : Answer → Bool
  | .abstain => false
  | _ => true

/-- All answers. -/
def all : List Answer := [.allow, .deny, .abstain]

/-- Name of an answer in texts. -/
def name : Answer → String
  | .allow => "allow"
  | .deny => "deny"
  | .abstain => "abstain"

/-- The answer with a name. -/
def ofName? (name : String) : Option Answer := all.find? (·.name == name)

end Answer

/-- A filter, known by its name.  It may read and change the match state whenever it is asked. -/
structure Filter (σ : Type) where
  name : String
  ask : Query → σ → Answer × σ

end RegionRules
