import RegionRules.Proofs.Bounds.Membership
import RegionRules.Bounds.BlockRange

/-!
# Boxes and their blocks

The range of a box should hold the blocks whose centres lie in the box.  One half of this is true
of every box whose blocks can be listed: no such block is missing (`covers_of_contains_center`).
The other half is a property of the box, `Bounds.Tight`: a face that lies just short of a block's
centre may be rounded onto it, and the block is in the range all the same.  Boxes with faces on the
grid of half blocks are tight (`OnGrid.tight`), in particular the boxes filled by blocks.
-/

set_option autoImplicit false

namespace RegionRules

/-! ## Ranges -/

namespace BlockRange

/-- The block lies between the corners of the range on every axis. -/
def Contains (r : BlockRange) (p : BlockPos) : Prop :=
  ∀ i, r.lo.coord i ≤ p.coord i ∧ p.coord i ≤ r.hi.coord i

variable {r : BlockRange} {p : BlockPos}

lemma contains_iff : r.Contains p ↔
    (r.lo.x.toInt ≤ p.x.toInt ∧ p.x.toInt ≤ r.hi.x.toInt) ∧
      (r.lo.y.toInt ≤ p.y.toInt ∧ p.y.toInt ≤ r.hi.y.toInt) ∧
        r.lo.z.toInt ≤ p.z.toInt ∧ p.z.toInt ≤ r.hi.z.toInt := by
  simp only [Contains, Axis.forall_iff, BlockPos.coord, Int32.le_iff_toInt_le]

lemma contains_lo (r : BlockRange) : r.Contains r.lo := by
  have hx := Int32.le_iff_toInt_le.1 r.le_x
  have hy := Int32.le_iff_toInt_le.1 r.le_y
  have hz := Int32.le_iff_toInt_le.1 r.le_z
  rw [contains_iff]
  omega

lemma ofCorners?_eq_some_iff {lo hi : BlockPos} :
    ofCorners? lo hi = some r ↔ lo = r.lo ∧ hi = r.hi := by
  unfold ofCorners?
  constructor
  · intro h
    split_ifs at h with hle
    cases h
    exact ⟨rfl, rfl⟩
  · rintro ⟨rfl, rfl⟩
    exact dif_pos ⟨r.le_x, r.le_y, r.le_z⟩

lemma exists_ofCorners?_iff {lo hi : BlockPos} :
    (∃ r, ofCorners? lo hi = some r ∧ r.Contains p) ↔
      ∀ i, lo.coord i ≤ p.coord i ∧ p.coord i ≤ hi.coord i := by
  constructor
  · rintro ⟨r, hr, hp⟩
    obtain ⟨rfl, rfl⟩ := ofCorners?_eq_some_iff.1 hr
    exact hp
  · intro h
    have hle (i : Axis) : lo.coord i ≤ hi.coord i := Int32.le_trans (h i).1 (h i).2
    exact ⟨⟨lo, hi, hle .x, hle .y, hle .z⟩, ofCorners?_eq_some_iff.2 ⟨rfl, rfl⟩, h⟩

end BlockRange

/-! ## Corners and centres -/

lemma BlockPos.isHalves_corner (p : BlockPos) (i : Axis) :
    (p.corner.coord i).IsHalves (2 * (p.coord i).toInt) := by
  have hlow := (p.coord i).le_toInt
  have hhigh := (p.coord i).toInt_lt
  have h := Binary64.isHalves_ofInt (i := (p.coord i).toInt) (by omega)
  cases i <;> exact h

lemma BlockPos.isHalves_center (p : BlockPos) (i : Axis) :
    (p.center.coord i).IsHalves (2 * (p.coord i).toInt + 1) := by
  have hlow := (p.coord i).le_toInt
  have hhigh := (p.coord i).toInt_lt
  rw [center, Vec3.coord_add, Vec3.coord_splat]
  exact (p.isHalves_corner i).add Binary64.isHalves_half (by omega)

lemma BlockPos.toInt_coord_lesser (a b : BlockPos) (i : Axis) :
    ((a.lesser b).coord i).toInt = min (a.coord i).toInt (b.coord i).toInt := by
  cases i <;> simp only [lesser, coord, Int32.le_iff_toInt_le] <;> split_ifs <;> omega

lemma BlockPos.toInt_coord_greater (a b : BlockPos) (i : Axis) :
    ((a.greater b).coord i).toInt = max (a.coord i).toInt (b.coord i).toInt := by
  cases i <;> simp only [greater, coord, Int32.le_iff_toInt_le] <;> split_ifs <;> omega

namespace Bounds

/-! ## The range of a box -/

/-- Corner block of the range of a box, towards negative infinity. -/
def firstBlock (b : Bounds) : BlockPos :=
  ⟨(b.lower.x - .half).ceilCoordinate, (b.lower.y - .half).ceilCoordinate,
    (b.lower.z - .half).ceilCoordinate⟩

/-- Corner block of the range of a box, towards positive infinity. -/
def lastBlock (b : Bounds) : BlockPos :=
  ⟨(b.upper.x - .half).floorCoordinate, (b.upper.y - .half).floorCoordinate,
    (b.upper.z - .half).floorCoordinate⟩

/-- The range of the box has the block. -/
def Covers (b : Bounds) (p : BlockPos) : Prop := ∃ r, b.blockRange = .ok (some r) ∧ r.Contains p

/-- The range of the box has no block whose centre lies outside the box. -/
def Tight (b : Bounds) : Prop := ∀ p, b.Covers p → b.contains p.center = true

variable {b : Bounds} {p : BlockPos}

lemma coord_firstBlock (b : Bounds) (i : Axis) :
    b.firstBlock.coord i = (b.lower.coord i - .half).ceilCoordinate := by
  cases i <;> rfl

lemma coord_lastBlock (b : Bounds) (i : Axis) :
    b.lastBlock.coord i = (b.upper.coord i - .half).floorCoordinate := by
  cases i <;> rfl

lemma blockRange_of_isEmpty (h : b.isEmpty = true) : b.blockRange = .ok none := by
  rw [blockRange, isBlockBounded_of_isEmpty h, h]
  rfl

lemma InWorld.blockRange (h : b.InWorld) :
    b.blockRange = .ok (BlockRange.ofCorners? b.firstBlock b.lastBlock) := by
  rw [Bounds.blockRange, (isBlockBounded_iff h.not_isEmpty).2 h, h.not_isEmpty]
  rfl

lemma exists_blockRange (h : b.isBlockBounded = true) : ∃ range, b.blockRange = .ok range := by
  by_cases he : b.isEmpty = true
  · exact ⟨_, blockRange_of_isEmpty he⟩
  · exact ⟨_, ((isBlockBounded_iff (Bool.not_eq_true _ ▸ he)).1 h).blockRange⟩

lemma covers_iff_contains {r : BlockRange} (h : b.blockRange = .ok (some r)) :
    b.Covers p ↔ r.Contains p := by
  simp [Covers, h]

lemma not_covers_of_none (h : b.blockRange = .ok none) : ¬ b.Covers p := by
  simp [Covers, h]

lemma InWorld.covers_iff (h : b.InWorld) :
    b.Covers p ↔ ∀ i, (b.lower.coord i - .half).ceilCoordinate ≤ p.coord i ∧
      p.coord i ≤ (b.upper.coord i - .half).floorCoordinate := by
  simp only [Covers, h.blockRange, Except.ok.injEq, BlockRange.exists_ofCorners?_iff,
    coord_firstBlock, coord_lastBlock]

/-- **No block of a box is missing from its range.** -/
theorem covers_of_contains_center (h : b.isBlockBounded = true)
    (hp : b.contains p.center = true) : b.Covers p := by
  have hworld := (isBlockBounded_iff (not_isEmpty_of_contains hp)).1 h
  rw [hworld.covers_iff]
  intro i
  obtain ⟨hlower, hupper⟩ := contains_iff.1 hp i
  exact ⟨Binary64.ceilCoordinate_le_of_le_centre (hworld.lower i) (p.isHalves_center i) hlower,
    Binary64.le_floorCoordinate_of_centre_le (hworld.upper i) (p.isHalves_center i) hupper⟩

/-! ## Boxes on the grid -/

/-- The faces of the box are at `lo` and `hi` half blocks, and it reaches into the world of blocks
on every axis. -/
structure OnGrid (b : Bounds) (lo hi : Axis → ℤ) : Prop where
  lower : ∀ i, (b.lower.coord i).IsHalves (lo i)
  upper : ∀ i, (b.upper.coord i).IsHalves (hi i)
  lo_le_hi : ∀ i, lo i ≤ hi i
  lo_mem : ∀ i, -4294967296 ≤ lo i ∧ lo i < 4294967296
  hi_mem : ∀ i, -4294967296 < hi i ∧ hi i ≤ 4294967296

namespace OnGrid

variable {lo hi : Axis → ℤ}

lemma inWorld (h : b.OnGrid lo hi) : b.InWorld := by
  have hlowest := isHalves_lowestFace
  have hhighest := isHalves_highestFace
  refine ⟨fun i => ?_, fun i => ?_, fun i => ?_⟩
  · refine Binary64.inWorld_of_le_of_le hlowest hhighest ?_ ?_
    · exact (hlowest.le_iff_le (h.lower i)).2 (h.lo_mem i).1
    · exact ((h.lower i).le_iff_le hhighest).2 (h.lo_mem i).2.le
  · refine Binary64.inWorld_of_le_of_le hlowest hhighest ?_ ?_
    · exact (hlowest.le_iff_le (h.upper i)).2 (h.hi_mem i).1.le
    · exact ((h.upper i).le_iff_le hhighest).2 (h.hi_mem i).2
  · exact ((h.lower i).le_iff_le (h.upper i)).2 (h.lo_le_hi i)

lemma isBlockBounded (h : b.OnGrid lo hi) : b.isBlockBounded = true :=
  (isBlockBounded_iff h.inWorld.not_isEmpty).2 h.inWorld

lemma contains_center_iff (h : b.OnGrid lo hi) :
    b.contains p.center = true ↔
      ∀ i, lo i ≤ 2 * (p.coord i).toInt + 1 ∧ 2 * (p.coord i).toInt + 1 ≤ hi i := by
  simp only [contains_iff, (h.lower _).le_iff_le (p.isHalves_center _),
    (p.isHalves_center _).le_iff_le (h.upper _)]

lemma covers_iff (h : b.OnGrid lo hi) :
    b.Covers p ↔
      ∀ i, lo i ≤ 2 * (p.coord i).toInt + 1 ∧ 2 * (p.coord i).toInt + 1 ≤ hi i := by
  simp only [h.inWorld.covers_iff,
    Binary64.ceilCoordinate_le_iff (h.lower _) (h.lo_mem _).1 (h.lo_mem _).2,
    Binary64.le_floorCoordinate_iff (h.upper _) (h.hi_mem _).1 (h.hi_mem _).2]

lemma tight (h : b.OnGrid lo hi) : b.Tight := fun _ hp =>
  h.contains_center_iff.2 (h.covers_iff.1 hp)

end OnGrid

/-! ## Boxes of blocks -/

lemma onGrid_ofBlocks (a b : BlockPos) :
    (ofBlocks a b).OnGrid (fun i => 2 * min (a.coord i).toInt (b.coord i).toInt)
      (fun i => 2 * max (a.coord i).toInt (b.coord i).toInt + 2) := by
  have hrange (i : Axis) : -2147483648 ≤ min (a.coord i).toInt (b.coord i).toInt ∧
      max (a.coord i).toInt (b.coord i).toInt < 2147483648 := by
    have := (a.coord i).le_toInt
    have := (a.coord i).toInt_lt
    have := (b.coord i).le_toInt
    have := (b.coord i).toInt_lt
    omega
  refine ⟨fun i => ?_, fun i => ?_, fun i => ?_, fun i => ?_, fun i => ?_⟩
  · rw [← BlockPos.toInt_coord_lesser]
    exact (a.lesser b).isHalves_corner i
  · rw [ofBlocks, Vec3.coord_add, Vec3.coord_splat, ← BlockPos.toInt_coord_greater]
    exact ((a.greater b).isHalves_corner i).add Binary64.isHalves_one
      (by have := BlockPos.toInt_coord_greater a b i; have := hrange i; omega)
  all_goals
    have := hrange i
    omega

/-- The box that has only the centre of a block. -/
def atCenter (p : BlockPos) : Bounds := ⟨p.center, p.center⟩

lemma onGrid_atCenter (p : BlockPos) :
    (atCenter p).OnGrid (fun i => 2 * (p.coord i).toInt + 1)
      (fun i => 2 * (p.coord i).toInt + 1) := by
  refine ⟨p.isHalves_center, p.isHalves_center, fun i => le_rfl, fun i => ?_, fun i => ?_⟩ <;>
  · have := (p.coord i).le_toInt
    have := (p.coord i).toInt_lt
    omega

lemma coord_center_congr {q : BlockPos} {i : Axis} (h : q.coord i = p.coord i) :
    q.center.coord i = p.center.coord i := by
  cases i <;> exact congrArg (fun c => Binary64.ofCoordinate c + .half) h

/-- Different centres make disjoint boxes. -/
lemma disjoint_atCenter {q : BlockPos} {i : Axis} (h : q.coord i ≠ p.coord i) :
    (atCenter q).disjoint (atCenter p) = true := by
  have hq := q.isHalves_center i
  have hp := p.isHalves_center i
  refine disjoint_iff.2 ⟨i, ?_⟩
  rcases lt_or_gt_of_ne (mt Int32.toInt_inj.1 h) with hlt | hlt
  · refine .inl (Binary64.lt_of_not_le hp.isFinite.ne_nan hq.isFinite.ne_nan fun hle => ?_)
    have := (hp.le_iff_le hq).1 hle
    omega
  · refine .inr (Binary64.lt_of_not_le hq.isFinite.ne_nan hp.isFinite.ne_nan fun hle => ?_)
    have := (hq.le_iff_le hp).1 hle
    omega

lemma covers_atCenter_iff {q : BlockPos} : (atCenter p).Covers q ↔ q = p := by
  rw [(onGrid_atCenter p).covers_iff]
  constructor
  · intro h
    refine BlockPos.ext_coord fun i => Int32.toInt_inj.1 ?_
    have := h i
    omega
  · rintro rfl i
    exact ⟨le_rfl, le_rfl⟩

end Bounds
end RegionRules
