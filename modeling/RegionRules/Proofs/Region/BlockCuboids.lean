import RegionRules.Proofs.Bounds.Columns
import RegionRules.Proofs.Region.Steady

/-!
# Cuboids of blocks

A cuboid of blocks is given by two corner blocks and kept as a box of numbers, with the far face one
beyond the last block.  Whatever is asked of it goes back from these faces to blocks: the range
rounds them, a test compares them with a centre, and a list walks the range.  All of it comes to the
range between the corners (`Region.cuboidBlocks_isFilledBy`), up to the last coordinates of the
world, where the far face is no coordinate any more.

Boxes in general are less faithful.  A box has one range by all accounts just when its range has no
stray block (`Region.isFilledBy_cuboid_iff`).
-/

set_option autoImplicit false

namespace RegionRules

/-! ## The range between two blocks -/

namespace BlockRange

lemma contains_hi (r : BlockRange) : r.Contains r.hi := Axis.forall_iff.2
  ⟨⟨r.le_x, Int32.le_refl _⟩, ⟨r.le_y, Int32.le_refl _⟩, ⟨r.le_z, Int32.le_refl _⟩⟩

/-- A range is determined by its blocks. -/
lemma eq_of_contains_iff {r r' : BlockRange} (h : ∀ p, r.Contains p ↔ r'.Contains p) : r = r' := by
  have hlo : r.lo = r'.lo := BlockPos.ext_coord fun i =>
    Int32.le_antisymm ((h _).2 r'.contains_lo i).1 ((h _).1 r.contains_lo i).1
  have hhi : r.hi = r'.hi := BlockPos.ext_coord fun i =>
    Int32.le_antisymm ((h _).1 r.contains_hi i).2 ((h _).2 r'.contains_hi i).2
  cases r
  cases r'
  simp_all

lemma lesser_le_greater (a b : BlockPos) (i : Axis) :
    (a.lesser b).coord i ≤ (a.greater b).coord i := by
  rw [Int32.le_iff_toInt_le, BlockPos.toInt_coord_lesser, BlockPos.toInt_coord_greater]
  omega

/-- The range between two corner blocks given in any order. -/
def between (a b : BlockPos) : BlockRange :=
  ⟨a.lesser b, a.greater b, lesser_le_greater a b .x, lesser_le_greater a b .y,
    lesser_le_greater a b .z⟩

/-- The range reaches from the lesser to the greater coordinate on every axis. -/
lemma between_spec (a b : BlockPos) (i : Axis) :
    ((between a b).lo.coord i).toInt = min (a.coord i).toInt (b.coord i).toInt ∧
      ((between a b).hi.coord i).toInt = max (a.coord i).toInt (b.coord i).toInt :=
  ⟨BlockPos.toInt_coord_lesser a b i, BlockPos.toInt_coord_greater a b i⟩

end BlockRange

namespace Bounds

lemma covers_ofBlocks_iff {a b p : BlockPos} :
    (ofBlocks a b).Covers p ↔ (BlockRange.between a b).Contains p := by
  rw [(onGrid_ofBlocks a b).covers_iff]
  refine forall_congr' fun i => ?_
  obtain ⟨hlo, hhi⟩ := BlockRange.between_spec a b i
  rw [Int32.le_iff_toInt_le, Int32.le_iff_toInt_le, hlo, hhi]
  omega

/-- **The way to the faces of a box of blocks and back ends at the same blocks.** -/
lemma blockRange_ofBlocks (a b : BlockPos) :
    (ofBlocks a b).blockRange = .ok (some (.between a b)) := by
  obtain ⟨_ | r, hrange⟩ := exists_blockRange (onGrid_ofBlocks a b).isBlockBounded
  · exact absurd (covers_ofBlocks_iff.2 (BlockRange.contains_lo _)) (not_covers_of_none hrange)
  · have hr : r = .between a b := BlockRange.eq_of_contains_iff fun p =>
      (covers_iff_contains hrange).symm.trans covers_ofBlocks_iff
    rw [hrange, hr]

end Bounds

namespace Region

variable {σ : Type} {s : σ} {r : BlockRange}

/-! ## Regions filled by a range -/

/-- By every account that the region gives of itself in the state, its blocks are those of the
range.  The list has each of them once, whatever is remembered of unions, and in whatever states of
the match its blocks are asked for. -/
structure IsFilledBy (s : σ) (region : Region σ) (r : BlockRange) : Prop where
  isBlockBounded : region.isBlockBounded s = true
  isEmpty_eq : region.isEmpty s = false
  blockRange_eq : (region.bounds s).blockRange = .ok (some r)
  containsBlock_iff : ∀ b, region.containsBlock s b = true ↔ r.Contains b
  exists_blocks : ∀ memo, ∃ c, region.blocks memo s = .ok c ∧ c.Lists s r.Contains ∧
    ∀ states, c.answers states = ((c.toList s).map some).takeD states.length none

/-- **A box is filled by its range if and only if the range has no stray block.** -/
lemma isFilledBy_cuboid_iff {c : Cuboid} :
    IsFilledBy s (.cuboid c) r ↔ c.bounds.blockRange = .ok (some r) ∧ c.bounds.Tight := by
  constructor
  · intro h
    have hrange : c.bounds.blockRange = .ok (some r) := h.blockRange_eq
    exact ⟨hrange, fun p hp =>
      (h.containsBlock_iff p).2 ((Bounds.covers_iff_contains hrange).1 hp)⟩
  · rintro ⟨hrange, htight⟩
    have hcovers {p : BlockPos} : c.bounds.Covers p ↔ r.Contains p :=
      Bounds.covers_iff_contains hrange
    have hworld : c.bounds.InWorld := (hcovers.2 r.contains_lo).inWorld
    have hbounded : isBlockBounded s (.cuboid c) = true :=
      (Bounds.isBlockBounded_iff hworld.not_isEmpty).2 hworld
    refine ⟨hbounded, hworld.not_isEmpty, hrange, fun b => ?_, fun memo => ?_⟩
    · rw [← hcovers]
      exact ⟨Bounds.covers_of_contains_center hbounded, htight b⟩
    · have hblocks : blocks memo s (.cuboid c) = .ok (.range r r.lo) := by
        rw [blocks_eq_cursor memo hbounded, cursor, Cursor.ofBounds, hrange]
        rfl
      exact ⟨_, hblocks, .range s r, (Cursor.Steady.range r r.lo).answers_eq s⟩

/-- **A cuboid of blocks is filled by the range between its corners.**  The corners may be given in
any order and lie anywhere in the world, the last coordinates included.  The cuboid can be listed
and is not empty, the range of its bounds reaches from the lesser to the greater corner coordinate
on every axis, and the blocks that it contains and those that it lists are the blocks of this range,
in every state. -/
theorem cuboidBlocks_isFilledBy (a b : BlockPos) :
    (∀ i, ((BlockRange.between a b).lo.coord i).toInt = min (a.coord i).toInt (b.coord i).toInt ∧
      ((BlockRange.between a b).hi.coord i).toInt = max (a.coord i).toInt (b.coord i).toInt) ∧
    ∀ s : σ, (cuboidBlocks a b).IsFilledBy s (.between a b) :=
  ⟨BlockRange.between_spec a b, fun _ => isFilledBy_cuboid_iff.2
    ⟨Bounds.blockRange_ofBlocks a b, (Bounds.onGrid_ofBlocks a b).tight⟩⟩

/-- The cuboid from one end of the world to the other, with the corners crossed. -/
example : ((cuboidBlocks ⟨.maxValue, 0, .minValue⟩ ⟨.minValue, 0, .maxValue⟩ :
    Region Unit).bounds ()).blockRange = .ok (some
      ⟨⟨.minValue, 0, .minValue⟩, ⟨.maxValue, 0, .maxValue⟩, by decide, by decide, by decide⟩) := by
  decide +kernel

end Region
end RegionRules
