import RegionRules.Proofs.Binary64.Faces
import RegionRules.Proofs.Bounds.Cells

/-!
# When the range of a box is exact

The range of a box is exact when its blocks are those whose centres lie in the box, and when a box
without such a block has no range.  The second half follows from the first, which is `Bounds.Tight`
(`rangeIsExact_iff_tight`).

Both a box and its range are products of what they are on each axis, so one loose face is enough to
let in a block that is cut off, unless some other axis keeps every block out.  That is the whole
story: `Bounds.rangeIsExact_iff` decides the range of every box whose blocks can be listed.
-/

set_option autoImplicit false

namespace RegionRules

/-- The block with the given coordinates. -/
def BlockPos.ofCoords (f : Axis → Int32) : BlockPos := ⟨f .x, f .y, f .z⟩

lemma BlockPos.coord_ofCoords (f : Axis → Int32) (i : Axis) : (ofCoords f).coord i = f i := by
  cases i <;> rfl

lemma BlockPos.coord_center (p : BlockPos) (i : Axis) :
    p.center.coord i = Binary64.centreAt (p.coord i) := by
  cases i <;> rfl

namespace Bounds

/-- The range of the box has exactly the blocks whose centres lie in the box, and a box without one
has no range. -/
structure RangeIsExact (b : Bounds) : Prop where
  covers_iff : ∀ p : BlockPos, b.Covers p ↔ b.contains p.center = true
  none_iff : b.blockRange = .ok none ↔ ∀ p : BlockPos, ¬ b.contains p.center = true

/-! ## One axis -/

/-- On one axis, the faces of the box select the coordinate. -/
def CoversOn (b : Bounds) (i : Axis) (c : Int32) : Prop :=
  (b.lower.coord i - .half).ceilCoordinate ≤ c ∧ c ≤ (b.upper.coord i - .half).floorCoordinate

/-- On one axis, the centres at the coordinate lie between the faces of the box. -/
def HasCentreOn (b : Bounds) (i : Axis) (c : Int32) : Prop :=
  b.lower.coord i ≤ Binary64.centreAt c ∧ Binary64.centreAt c ≤ b.upper.coord i

/-- One of the faces of the box on the axis selects a block it cuts off. -/
def LooseOn (b : Bounds) (i : Axis) : Prop :=
  (b.lower.coord i).LooseLower ∨ (b.upper.coord i).LooseUpper

instance (b : Bounds) (i : Axis) : Decidable (b.LooseOn i) :=
  inferInstanceAs (Decidable (_ ∨ _))

variable {b : Bounds} {i : Axis} {c : Int32} {p : BlockPos}

lemma contains_center_iff :
    b.contains p.center = true ↔ ∀ i, b.HasCentreOn i (p.coord i) := by
  simp only [contains_iff, BlockPos.coord_center, HasCentreOn]

namespace InWorld

lemma covers_iff_coversOn (h : b.InWorld) : b.Covers p ↔ ∀ i, b.CoversOn i (p.coord i) :=
  h.covers_iff

lemma coversOn_of_hasCentreOn (h : b.InWorld) (hc : b.HasCentreOn i c) : b.CoversOn i c :=
  ⟨Binary64.ceilCoordinate_le_of_le_centre (h.lower i) (Binary64.isHalves_centreAt c) hc.1,
    Binary64.le_floorCoordinate_of_centre_le (h.upper i) (Binary64.isHalves_centreAt c) hc.2⟩

lemma coversOn_iff (h : b.InWorld) (hloose : ¬ b.LooseOn i) :
    b.CoversOn i c ↔ b.HasCentreOn i c := by
  rw [LooseOn, not_or] at hloose
  rw [CoversOn, HasCentreOn, Binary64.ceilCoordinate_le_iff_le_centreAt (h.lower i) hloose.1,
    Binary64.le_floorCoordinate_iff_centreAt_le (h.upper i) hloose.2]

/-- A loose face lets a coordinate in: the other face, on the far side of it, does not object. -/
lemma exists_coversOn_of_looseOn (h : b.InWorld) (hloose : b.LooseOn i) :
    ∃ c, b.CoversOn i c ∧ ¬ b.HasCentreOn i c := by
  have hfaces := h.lower_le_upper i
  rcases hloose with hlower | hupper
  · obtain ⟨c, hselected, hcut⟩ := hlower.exists_selected (h.lower i)
    have hcentre := Binary64.isHalves_centreAt c
    have hle : Binary64.centreAt c ≤ b.upper.coord i :=
      Binary64.le_trans_num (Binary64.le_of_lt_num (Binary64.lt_of_not_le
        (h.lower i).isFinite.ne_nan hcentre.isFinite.ne_nan hcut)) hfaces
    exact ⟨c, ⟨hselected, Binary64.le_floorCoordinate_of_centre_le (h.upper i) hcentre hle⟩,
      fun hc => hcut hc.1⟩
  · obtain ⟨c, hselected, hcut⟩ := hupper.exists_selected (h.upper i)
    have hcentre := Binary64.isHalves_centreAt c
    have hle : b.lower.coord i ≤ Binary64.centreAt c :=
      Binary64.le_trans_num hfaces (Binary64.le_of_lt_num (Binary64.lt_of_not_le
        hcentre.isFinite.ne_nan (h.upper i).isFinite.ne_nan hcut))
    exact ⟨c, ⟨Binary64.ceilCoordinate_le_of_le_centre (h.lower i) hcentre hle, hselected⟩,
      fun hc => hcut hc.2⟩

end InWorld

/-! ## All axes -/

/-- A range without stray blocks is exact, since no block is missing from any range. -/
lemma rangeIsExact_iff_tight (h : b.isBlockBounded = true) : b.RangeIsExact ↔ b.Tight := by
  constructor
  · exact fun hexact p => (hexact.covers_iff p).1
  intro htight
  have hcovers (p : BlockPos) : b.Covers p ↔ b.contains p.center = true :=
    ⟨htight p, covers_of_contains_center h⟩
  refine ⟨hcovers, ?_⟩
  simp only [← hcovers]
  constructor
  · exact fun hnone p => not_covers_of_none hnone
  · intro hempty
    obtain ⟨_ | r, hrange⟩ := exists_blockRange h
    · exact hrange
    · exact absurd ((covers_iff_contains hrange).2 r.contains_lo) (hempty _)

lemma InWorld.tight_iff (h : b.InWorld) : b.Tight ↔
    (∀ i, ¬ b.LooseOn i) ∨ ∃ i, ¬ b.LooseOn i ∧ ∀ c, ¬ b.HasCentreOn i c := by
  constructor
  · intro htight
    by_contra hcon
    push Not at hcon
    obtain ⟨⟨i, hloose⟩, hcentres⟩ := hcon
    -- Every axis selects a coordinate, a loose one by its loose face.
    have hselects (j : Axis) : ∃ c, b.CoversOn j c := by
      by_cases hj : b.LooseOn j
      · exact (h.exists_coversOn_of_looseOn hj).imp fun _ => And.left
      · exact (hcentres j hj).imp fun _ => h.coversOn_of_hasCentreOn
    choose f hf using hselects
    obtain ⟨c, hc, hcut⟩ := h.exists_coversOn_of_looseOn hloose
    have hcoord := BlockPos.coord_ofCoords (Function.update f i c)
    have hcovered : b.Covers (.ofCoords (Function.update f i c)) := by
      rw [h.covers_iff_coversOn]
      intro j
      rw [hcoord]
      rcases eq_or_ne j i with rfl | hne
      · rwa [Function.update_self]
      · rw [Function.update_of_ne hne]
        exact hf j
    have hinside := contains_center_iff.1 (htight _ hcovered) i
    rw [hcoord, Function.update_self] at hinside
    exact hcut hinside
  · rintro (hnone | ⟨i, hloose, hempty⟩) p hp <;> rw [h.covers_iff_coversOn] at hp
    · exact contains_center_iff.2 fun i => (h.coversOn_iff (hnone i)).1 (hp i)
    · exact absurd ((h.coversOn_iff hloose).1 (hp i)) (hempty _)

/-- **The range of a box is exact if and only if the box is empty, has no loose face, or has an axis
without loose faces that no centre fits on.** -/
theorem rangeIsExact_iff (h : b.isBlockBounded = true) : b.RangeIsExact ↔
    b.isEmpty = true ∨ (∀ i, ¬ b.LooseOn i) ∨
      ∃ i, ¬ b.LooseOn i ∧ ∀ c, ¬ b.HasCentreOn i c := by
  rw [rangeIsExact_iff_tight h]
  by_cases he : b.isEmpty = true
  · have htight : b.Tight := fun p hp =>
      absurd hp (not_covers_of_none (blockRange_of_isEmpty he))
    exact ⟨fun _ => .inl he, fun _ => htight⟩
  · rw [((isBlockBounded_iff (Bool.not_eq_true _ ▸ he)).1 h).tight_iff]
    exact (or_iff_right he).symm

section LooseFaces

/-- The number right below `-1/2`. -/
def shavedFace : Binary64 := .ofPlace ((Binary64.centreAt (-1)).place - 1)

/-- The number right above `-1/2`. -/
def nudgedFace : Binary64 := .ofPlace ((Binary64.centreAt (-1)).place + 1)

/-- A box of the given extent along `x`, and from `0` to `top` along `y` and `z`. -/
def bar (lower upper top : Binary64) : Bounds :=
  ⟨⟨lower, .zero false, .zero false⟩, ⟨upper, top, top⟩⟩

/-- A box with a loose face that has no centre along `y` and `z`. -/
theorem rangeIsExact_bar :
    (bar (.ofInt (-3)) shavedFace (.zero false)).isBlockBounded = true ∧
      (bar (.ofInt (-3)) shavedFace (.zero false)).LooseOn .x ∧
        (bar (.ofInt (-3)) shavedFace (.zero false)).RangeIsExact := by
  have hbounded : (bar (.ofInt (-3)) shavedFace (.zero false)).isBlockBounded = true := by
    decide +kernel
  have hfirm : ¬ (bar (.ofInt (-3)) shavedFace (.zero false)).LooseOn .y := by
    decide +kernel
  refine ⟨hbounded, by decide +kernel, (rangeIsExact_iff hbounded).2 (.inr (.inr ⟨.y, hfirm, ?_⟩))⟩
  intro c hc
  have hzero := Binary64.isHalves_ofInt (i := 0) (by norm_num)
  have hcentre := Binary64.isHalves_centreAt c
  have hlower := (hzero.le_iff_le hcentre).1 hc.1
  have hupper := (hcentre.le_iff_le hzero).1 hc.2
  omega

lemma not_rangeIsExact_of_stray (hcovers : b.Covers p) (hcut : b.contains p.center = false) :
    ¬ b.RangeIsExact := fun h =>
  Bool.false_ne_true (hcut.symm.trans ((h.covers_iff p).1 hcovers))

/-- Three boxes with a block in their ranges that each of them cuts off: an upper face right below
`-1/2`, a lower face right above it, and a box on the far face of the world of blocks. -/
theorem not_rangeIsExact_bars :
    ((bar (.ofInt (-3)) shavedFace .one).isBlockBounded = true ∧
        ¬ (bar (.ofInt (-3)) shavedFace .one).RangeIsExact) ∧
      ((bar nudgedFace .one .one).isBlockBounded = true ∧
        ¬ (bar nudgedFace .one .one).RangeIsExact) ∧
      (bar highestFace highestFace .one).isBlockBounded = true ∧
        ¬ (bar highestFace highestFace .one).RangeIsExact := by
  have hshaved : (bar (.ofInt (-3)) shavedFace .one).Covers ⟨-1, 0, 0⟩ := by
    refine ⟨⟨⟨-3, 0, 0⟩, ⟨-1, 0, 0⟩, by decide, by decide, by decide⟩, by decide +kernel, ?_⟩
    rintro (_ | _ | _) <;> decide
  have hnudged : (bar nudgedFace .one .one).Covers ⟨-1, 0, 0⟩ := by
    refine ⟨⟨⟨-1, 0, 0⟩, ⟨0, 0, 0⟩, by decide, by decide, by decide⟩, by decide +kernel, ?_⟩
    rintro (_ | _ | _) <;> decide
  have houter : (bar highestFace highestFace .one).Covers ⟨Int32.maxValue, 0, 0⟩ := by
    refine ⟨⟨⟨Int32.maxValue, 0, 0⟩, ⟨Int32.maxValue, 0, 0⟩, by decide, by decide, by decide⟩,
      by decide +kernel, ?_⟩
    rintro (_ | _ | _) <;> decide
  exact ⟨⟨by decide +kernel, not_rangeIsExact_of_stray hshaved (by decide +kernel)⟩,
    ⟨by decide +kernel, not_rangeIsExact_of_stray hnudged (by decide +kernel)⟩,
    by decide +kernel, not_rangeIsExact_of_stray houter (by decide +kernel)⟩

end LooseFaces

end Bounds
end RegionRules
