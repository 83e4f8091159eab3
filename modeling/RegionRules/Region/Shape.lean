import RegionRules.Bounds.Basic

/-!
# Primitive shapes

Box, ball and upright cylinder.  Each answers whether a point lies in it and gives its bounds.
Radii and heights may be negative: the tests of ball and cylinder look at squares and at the sign
of the height alone, the bounds of such a shape are empty.
-/

set_option autoImplicit false

namespace RegionRules

/-- A box as a shape. -/
structure Cuboid where
  bounds : Bounds
  deriving DecidableEq

namespace Cuboid

/-- The box between two corners given in any order. -/
def spanning (a b : Vec3) : Cuboid := ⟨.spanning a b⟩

/-- The box filled by the blocks between two corner blocks given in any order. -/
def ofBlocks (a b : BlockPos) : Cuboid := ⟨.ofBlocks a b⟩

/-- The box filled by one block. -/
def block (b : BlockPos) : Cuboid := .ofBlocks b b

/-- The point lies in the box. -/
def contains (c : Cuboid) (p : Vec3) : Bool := c.bounds.contains p

end Cuboid

/-- A ball, surface included. -/
structure Sphere where
  center : Vec3
  radius : Binary64
  deriving DecidableEq

namespace Sphere

/-- The point is no further from the centre than the radius, compared by squares. -/
def contains (s : Sphere) (p : Vec3) : Bool :=
  s.center.distanceSquared p ≤ s.radius * s.radius

/-- The cube around the ball. -/
def bounds (s : Sphere) : Bounds :=
  if s.radius < .zero false then .empty
  else .spanning (s.center - .splat s.radius) (s.center + .splat s.radius)

end Sphere

/-- An upright cylinder standing on its base point, surface included. -/
structure Cylinder where
  base : Vec3
  radius : Binary64
  height : Binary64
  deriving DecidableEq

namespace Cylinder

/-- The point is between bottom and top, and no further from the axis than the radius, compared by
squares. -/
def contains (c : Cylinder) (p : Vec3) : Bool :=
  let rise := p.y - c.base.y
  if rise < .zero false ∨ c.height < rise then false
  else
    let dx := p.x - c.base.x
    let dz := p.z - c.base.z
    dx * dx + dz * dz ≤ c.radius * c.radius

/-- The box around the cylinder. -/
def bounds (c : Cylinder) : Bounds :=
  if c.radius < .zero false ∨ c.height < .zero false then .empty
  else .spanning ⟨c.base.x - c.radius, c.base.y, c.base.z - c.radius⟩
    ⟨c.base.x + c.radius, c.base.y + c.height, c.base.z + c.radius⟩

end Cylinder

end RegionRules
