import RegionRules.Proofs.Region.Unions

/-!
# Lists of shapes

A box lists its whole range, a ball or a cylinder the blocks of its range that it contains:
the blocks that the shape *selects* (`exists_cursor_shape`).  They are the blocks that the shape
contains if the shape *fits* its bounds, that is, if neither list nor test goes beyond them
(`Fits.exists_cursor`).

Boxes of blocks fit.  A shape need not: a face may be rounded onto a centre beyond it, and the test
of a ball or a cylinder rounds as well and does not look at the sign of a radius.
-/

set_option autoImplicit false

namespace RegionRules
namespace Region

variable {σ : Type} {s : σ} {r : Region σ} {b : BlockPos}

/-- The region is a box, a ball or a cylinder. -/
inductive IsShape : Region σ → Prop
  | cuboid (c : Cuboid) : IsShape (.cuboid c)
  | sphere (b : Sphere) : IsShape (.sphere b)
  | cylinder (c : Cylinder) : IsShape (.cylinder c)

/-- The block is on the list of a shape. -/
def Selects (s : σ) : Region σ → BlockPos → Prop
  | .cuboid c, b => c.bounds.Covers b
  | r, b => (r.bounds s).Covers b ∧ r.containsBlock s b = true

/-- Every block that the shape lists or contains has its centre in the shape's bounds. -/
def Fits (s : σ) (r : Region σ) : Prop :=
  ∀ b, r.Selects s b ∨ r.containsBlock s b = true → (r.bounds s).contains b.center = true

lemma IsShape.isBlockBounded_eq (hr : r.IsShape) :
    r.isBlockBounded s = (r.bounds s).isBlockBounded := by
  cases hr <;> rfl

lemma IsShape.isStatic (hr : r.IsShape) : r.isStatic = true := by
  cases hr <;> rfl

lemma exists_cursor_shape (memo : Memo) (frozen : Bool) (hr : r.IsShape)
    (hbounded : r.isBlockBounded s = true) :
    ∃ c, r.cursor memo s frozen = .ok c ∧ c.Lists s (r.Selects s) := by
  rw [hr.isBlockBounded_eq] at hbounded
  cases hr with
  | cuboid c => exact Cursor.exists_ofBounds s hbounded
  | sphere b => exact Cursor.exists_scanBounds s (.sphere b) hbounded
  | cylinder c => exact Cursor.exists_scanBounds s (.cylinder c) hbounded

lemma selects_of_covers (hcovers : (r.bounds s).Covers b) (hb : r.containsBlock s b = true) :
    r.Selects s b := by
  cases r with
  | cuboid c => exact hcovers
  | _ => exact ⟨hcovers, hb⟩

/-- **A shape that fits lists the blocks that it contains.** -/
lemma Fits.exists_cursor (memo : Memo) (frozen : Bool) (hfits : r.Fits s) (hr : r.IsShape)
    (hbounded : r.isBlockBounded s = true) :
    ∃ c, r.cursor memo s frozen = .ok c ∧ r.ListedBy s c := by
  obtain ⟨c, hc, hlists⟩ := exists_cursor_shape memo frozen hr hbounded
  refine ⟨c, hc, hlists.congr fun b => ⟨fun hb => ?_, fun hb => ?_⟩, fun b hb => ?_⟩
  · have hcenter := hfits b (.inl hb)
    cases hr with
    | cuboid c => exact hcenter
    | sphere b => exact hb.2
    | cylinder c => exact hb.2
  · rw [hr.isBlockBounded_eq] at hbounded
    exact selects_of_covers (Bounds.covers_of_contains_center hbounded (hfits b (.inr hb))) hb
  · exact hfits b (.inr hb)

/-! ## Boxes -/

lemma fits_cuboid_iff {c : Cuboid} : Fits s (.cuboid c) ↔ c.bounds.Tight := by
  constructor
  · exact fun h b hb => h b (.inl hb)
  · rintro h b (hb | hb)
    · exact h b hb
    · exact hb

lemma fits_cuboidBlocks (s : σ) (a b : BlockPos) : Fits s (.cuboidBlocks a b) :=
  fits_cuboid_iff.2 (Bounds.onGrid_ofBlocks a b).tight

lemma isBlockBounded_cuboidBlocks (s : σ) (a b : BlockPos) :
    isBlockBounded s (.cuboidBlocks a b) = true :=
  (Bounds.onGrid_ofBlocks a b).isBlockBounded

/-! ## Empty bounds -/

/-- The bounds of a ball or a cylinder are never inverted: if they are empty, they are the canonical
empty box. -/
lemma bounds_eq_empty (hr : r.IsShape) (hcuboid : ∀ c, r ≠ .cuboid c)
    (he : (r.bounds s).isEmpty = true) : r.bounds s = .empty := by
  cases hr with
  | cuboid c => exact absurd rfl (hcuboid c)
  | sphere b =>
    simp only [bounds, Sphere.bounds] at he ⊢
    split_ifs at he ⊢ with hr
    · rfl
    · exact absurd he (Bounds.not_isEmpty_spanning _ _)
  | cylinder c =>
    simp only [bounds, Cylinder.bounds] at he ⊢
    split_ifs at he ⊢ with hr
    · rfl
    · exact absurd he (Bounds.not_isEmpty_spanning _ _)

end Region
end RegionRules
