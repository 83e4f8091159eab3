import RegionRules.Space.BlockPos

/-!
# Bounds

An axis-aligned box of points, faces included, possibly infinite along any axis.  Bounds summarise
regions: every region has bounds that its points lie in.

No order of the two corners is required.  A box whose lower corner exceeds its upper one on some
axis is empty; `Bounds.empty` is the canonical such box, which the combining operations return and
which is the neutral element of `union`.
-/

set_option autoImplicit false

namespace RegionRules

/-- An axis-aligned box, both faces inclusive. -/
structure Bounds where
  lower : Vec3
  upper : Vec3
  deriving DecidableEq, Inhabited

namespace Bounds

/-! ## Construction -/

/-- The box between two corners given in any order. -/
def spanning (a b : Vec3) : Bounds := ⟨a.lesser b, a.greater b⟩

/-- The box without points. -/
def empty : Bounds := ⟨Vec3.splat (.infinity false), Vec3.splat (.infinity true)⟩

/-- The box of all points. -/
def unbounded : Bounds := ⟨Vec3.splat (.infinity true), Vec3.splat (.infinity false)⟩

/-- The box filled by the blocks between two corner blocks given in any order. -/
def ofBlocks (a b : BlockPos) : Bounds :=
  ⟨(a.lesser b).corner, (a.greater b).corner + Vec3.splat .one⟩

/-! ## Tests -/

/-- Lowest coordinate in the world of blocks. -/
def lowestFace : Binary64 := .ofInt Int32.minValue.toInt

/-- Far face of the highest block. -/
def highestFace : Binary64 := .ofInt (Int32.maxValue.toInt + 1)

/-- The box is inverted on some axis, hence has no points. -/
def isEmpty (b : Bounds) : Bool := b.upper.anyLt b.lower

/-- The box lies in the world of blocks on every axis, or is empty: its blocks can be listed. -/
def isBlockBounded (b : Bounds) : Bool :=
  b.isEmpty ||
    ((Vec3.splat lowestFace).allLe b.lower && b.upper.allLe (Vec3.splat highestFace))

/-- The point lies in the box. -/
def contains (b : Bounds) (p : Vec3) : Bool := b.lower.allLe p && p.allLe b.upper

/-- The boxes miss each other along some axis; touching faces overlap. -/
def disjoint (a b : Bounds) : Bool := a.upper.anyLt b.lower || b.upper.anyLt a.lower

/-- Numerical equality of the corners. -/
def same (a b : Bounds) : Bool := a.lower.same b.lower && a.upper.same b.upper

/-! ## Combination -/

/-- Smallest box around both. -/
def union (a b : Bounds) : Bounds :=
  if a.isEmpty then b
  else if b.isEmpty then a
  else ⟨a.lower.lesser b.lower, a.upper.greater b.upper⟩

/-- Overlap of both, the canonical empty box if there is none. -/
def inter (a b : Bounds) : Bounds :=
  let overlap : Bounds := ⟨a.lower.greater b.lower, a.upper.lesser b.upper⟩
  if overlap.isEmpty then empty else overlap

/-- Text of a box in reports. -/
def text (b : Bounds) : String :=
  "Bounds \x7b min: " ++ b.lower.text ++ ", max: " ++ b.upper.text ++ " \x7d"

end Bounds

end RegionRules
