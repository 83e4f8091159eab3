/-!
# Scopes

The scope of a rule is the kind of happening it applies to.
-/

set_option autoImplicit false

namespace RegionRules

/-- What a rule applies to. -/
inductive Scope where
  /-- A player moves into the region. -/
  | playerEnter
  /-- A player moves out of the region. -/
  | playerLeave
  /-- A block inside the region is broken. -/
  | blockBreak
  /-- A block is placed inside the region. -/
  | blockPlace
  /-- A block is placed against a block inside the region. -/
  | blockPlaceAgainst
  /-- A block inside the region gets a physics update. -/
  | blockPhysics
  /-- A block inside the region is right-clicked. -/
  | use
  /-- Velocity and kits on entry and exit. -/
  | effect
  deriving DecidableEq, Hashable

namespace Scope

/-- All scopes. -/
def all : List Scope :=
  [.playerEnter, .playerLeave, .blockBreak, .blockPlace, .blockPlaceAgainst, .blockPhysics,
    .use, .effect]

/-- Name of a scope in texts. -/
def name : Scope → String
  | .playerEnter => "player_enter"
  | .playerLeave => "player_leave"
  | .blockBreak => "block_break"
  | .blockPlace => "block_place"
  | .blockPlaceAgainst => "block_place_against"
  | .blockPhysics => "block_physics"
  | .use => "use"
  | .effect => "effect"

/-- The scope with a name. -/
def ofName? (name : String) : Option Scope := all.find? (·.name == name)

/-- Name of a scope in reports. -/
def label : Scope → String
  | .playerEnter => "PlayerEnter"
  | .playerLeave => "PlayerLeave"
  | .blockBreak => "BlockBreak"
  | .blockPlace => "BlockPlace"
  | .blockPlaceAgainst => "BlockPlaceAgainst"
  | .blockPhysics => "BlockPhysics"
  | .use => "Use"
  | .effect => "Effect"

end Scope

end RegionRules
