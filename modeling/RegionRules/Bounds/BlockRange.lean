import RegionRules.Bounds.Basic

/-!
# Blocks of a box

A block belongs to a box when its centre does, so the blocks of a box form a *range*: all
positions between two corner positions.  This module finds the range, counts it, and lists the
chunk columns it touches.  `BlockRange.next?` walks a range block by block, `x` fastest, then `y`,
then `z`.
-/

set_option autoImplicit false

namespace RegionRules

/-- Why the blocks or columns of a box cannot be listed. -/
inductive BlockError where
  | notBlockBounded (bounds : Bounds)
  | tooManyColumns (count : Nat)
  deriving DecidableEq

/-- The report of an error. -/
def BlockError.message : BlockError → String
  | .notBlockBounded bounds => "Region is not block-bounded: " ++ bounds.text
  | .tooManyColumns count => "Region spans too many chunk columns: " ++ toString count

/-- All block positions from `lo` to `hi`, both included on every axis. -/
structure BlockRange where
  lo : BlockPos
  hi : BlockPos
  le_x : lo.x ≤ hi.x
  le_y : lo.y ≤ hi.y
  le_z : lo.z ≤ hi.z
  deriving DecidableEq

namespace BlockRange

/-- The range between two corners, if it has a block. -/
def ofCorners? (lo hi : BlockPos) : Option BlockRange :=
  if h : lo.x ≤ hi.x ∧ lo.y ≤ hi.y ∧ lo.z ≤ hi.z then some ⟨lo, hi, h.1, h.2.1, h.2.2⟩ else none

/-- Number of coordinates from `lo` to `hi`. -/
def span (lo hi : Int32) : Nat := (hi.toInt - lo.toInt + 1).toNat

/-- Number of blocks. -/
def size (r : BlockRange) : Nat :=
  span r.lo.x r.hi.x * span r.lo.y r.hi.y * span r.lo.z r.hi.z

/-- The block after `p`.  An axis advances only below its upper end, so no coordinate overflows. -/
def next? (r : BlockRange) (p : BlockPos) : Option BlockPos :=
  if p.x < r.hi.x then some ⟨p.x + 1, p.y, p.z⟩
  else if p.y < r.hi.y then some ⟨r.lo.x, p.y + 1, p.z⟩
  else if p.z < r.hi.z then some ⟨r.lo.x, r.lo.y, p.z + 1⟩
  else none

end BlockRange

/-! ## Volumes

A volume is counted in 64 bits and stays at the largest count beyond that. -/

/-- Largest volume that is told apart from greater ones. -/
def volumeLimit : Nat := UInt64.size - 1

/-- A count of blocks, held at the limit. -/
def cappedVolume (n : Nat) : Nat := min volumeLimit n

namespace BlockRange

/-- Number of coordinates from `lo` to `hi`, counted in 64 bits. -/
def extent (lo hi : Int32) : UInt64 := (hi.toInt64 - lo.toInt64 + 1).toUInt64

/-- Number of blocks, held at the limit after every product. -/
def volume (r : BlockRange) : Nat :=
  cappedVolume (cappedVolume ((extent r.lo.x r.hi.x).toNat * (extent r.lo.y r.hi.y).toNat) *
    (extent r.lo.z r.hi.z).toNat)

end BlockRange

/-! ## Chunk columns -/

/-- Side length of a chunk column, in blocks. -/
def chunkSize : Nat := 16

/-- Most columns that are listed. -/
def maxColumns : Nat := 65536

/-- Position of a chunk column, in chunks. -/
structure Column where
  x : Int32
  z : Int32
  deriving DecidableEq, Inhabited

namespace Column

/-- Chunk coordinate of a block coordinate, rounded down. -/
def coordinate (c : Int32) : Int32 := Int32.ofInt (c.toInt / chunkSize)

/-- The column a block stands in. -/
def ofBlock (b : BlockPos) : Column := ⟨coordinate b.x, coordinate b.z⟩

/-- All coordinates from `lo` to `hi`, ascending. -/
def coordinates (lo hi : Int32) : List Int32 :=
  (List.range (BlockRange.span lo hi)).map fun i : Nat => Int32.ofInt (lo.toInt + i)

/-- Number of chunk coordinates from `lo` to `hi`.  It is counted in 32 bits, as chunk coordinates
are small, and then widened to 64. -/
def extent (lo hi : Int32) : UInt64 := (hi - lo + 1).toInt64.toUInt64

end Column

/-- Columns touched by a range, ascending by `x`, then `z`. -/
def BlockRange.columns (r : BlockRange) : Except BlockError (List Column) :=
  let lo := Column.ofBlock r.lo
  let hi := Column.ofBlock r.hi
  let count := Column.extent lo.x hi.x * Column.extent lo.z hi.z
  if maxColumns < count.toNat then .error (.tooManyColumns count.toNat)
  else .ok ((Column.coordinates lo.x hi.x).flatMap fun x =>
    (Column.coordinates lo.z hi.z).map fun z => ⟨x, z⟩)

namespace Bounds

/-- The blocks whose centres lie in a box: on each axis from the first centre at or above the lower
face to the last one at or below the upper face. -/
def blockRange (b : Bounds) : Except BlockError (Option BlockRange) :=
  if !b.isBlockBounded then .error (.notBlockBounded b)
  else if b.isEmpty then .ok none
  else
    let lower := b.lower - Vec3.splat .half
    let upper := b.upper - Vec3.splat .half
    .ok (BlockRange.ofCorners?
      ⟨lower.x.ceilCoordinate, lower.y.ceilCoordinate, lower.z.ceilCoordinate⟩
      ⟨upper.x.floorCoordinate, upper.y.floorCoordinate, upper.z.floorCoordinate⟩)

/-- Number of blocks in a box, held at the volume limit. -/
def blockVolume (b : Bounds) : Except BlockError Nat :=
  b.blockRange.map fun
    | some r => r.volume
    | none => 0

/-- Chunk columns touched by the blocks of a box. -/
def columns (b : Bounds) : Except BlockError (List Column) :=
  b.blockRange.bind fun
    | some r => r.columns
    | none => .ok []

end Bounds

end RegionRules
