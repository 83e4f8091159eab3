import RegionRules.Binary64.Decimal

/-!
# Points and vectors

A point of the world, or the difference of two, as three binary64 coordinates.  Everything here
works axis by axis, except `lengthSquared`, whose sum runs over the axes in order.
-/

set_option autoImplicit false

namespace RegionRules

/-- A point or vector; the `y` axis is vertical. -/
structure Vec3 where
  x : Binary64
  y : Binary64
  z : Binary64
  deriving DecidableEq, Inhabited

namespace Vec3

/-- The vector with one number on every axis. -/
def splat (a : Binary64) : Vec3 := ⟨a, a, a⟩

/-- Combine two vectors axis by axis. -/
def zipWith (f : Binary64 → Binary64 → Binary64) (a b : Vec3) : Vec3 :=
  ⟨f a.x b.x, f a.y b.y, f a.z b.z⟩

instance : Add Vec3 := ⟨zipWith (· + ·)⟩
instance : Sub Vec3 := ⟨zipWith (· - ·)⟩

/-- The lesser number on every axis. -/
def lesser (a b : Vec3) : Vec3 := zipWith Binary64.lesser a b

/-- The greater number on every axis. -/
def greater (a b : Vec3) : Vec3 := zipWith Binary64.greater a b

/-- Every axis of `a` is at most that of `b`. -/
def allLe (a b : Vec3) : Bool := a.x ≤ b.x && a.y ≤ b.y && a.z ≤ b.z

/-- Some axis of `a` is below that of `b`. -/
def anyLt (a b : Vec3) : Bool := a.x < b.x || a.y < b.y || a.z < b.z

/-- Numerical equality on every axis. -/
def same (a b : Vec3) : Bool := a.x.same b.x && a.y.same b.y && a.z.same b.z

/-- Squared length, added up in the order `x`, `y`, `z`. -/
def lengthSquared (a : Vec3) : Binary64 := a.x * a.x + a.y * a.y + a.z * a.z

/-- Squared distance of two points. -/
def distanceSquared (a b : Vec3) : Binary64 := (a - b).lengthSquared

/-- Text of a vector in reports. -/
def text (a : Vec3) : String :=
  "DVec3(" ++ a.x.text ++ ", " ++ a.y.text ++ ", " ++ a.z.text ++ ")"

end Vec3

end RegionRules
