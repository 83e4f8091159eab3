import RegionRules.Space.Vec3

/-!
# Block positions

The world is a grid of unit blocks.  A block is named by the integer coordinates of its corner
towards negative infinity, and it is where its centre is.
-/

set_option autoImplicit false

namespace RegionRules

/-- Position of a block. -/
structure BlockPos where
  x : Int32
  y : Int32
  z : Int32
  deriving DecidableEq, Hashable, Inhabited

namespace BlockPos

/-- The lesser coordinate on every axis. -/
def lesser (a b : BlockPos) : BlockPos :=
  ⟨if a.x ≤ b.x then a.x else b.x, if a.y ≤ b.y then a.y else b.y, if a.z ≤ b.z then a.z else b.z⟩

/-- The greater coordinate on every axis. -/
def greater (a b : BlockPos) : BlockPos :=
  ⟨if a.x ≤ b.x then b.x else a.x, if a.y ≤ b.y then b.y else a.y, if a.z ≤ b.z then b.z else a.z⟩

/-- The corner of the block, as a point. -/
def corner (b : BlockPos) : Vec3 :=
  ⟨.ofCoordinate b.x, .ofCoordinate b.y, .ofCoordinate b.z⟩

/-- The centre of the block. -/
def center (b : BlockPos) : Vec3 := b.corner + Vec3.splat .half

end BlockPos

end RegionRules
