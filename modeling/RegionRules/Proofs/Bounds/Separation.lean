import RegionRules.Proofs.Bounds.Lattice

/-!
# When boxes are told to be disjoint

Two boxes are told to be disjoint if on some axis one ends before the other begins.  Such boxes
share no point, whatever they are (`not_contains_of_disjoint`).  Conversely, boxes that are not
empty and meet on every axis share the corner of their overlap (`NaNFree.exists_contains_of_meets`).

Emptiness is not looked at.  An empty box shares no point with any other, but it can meet another
box on every axis: the other must reach over the gap of its inverted faces.  These are the pairs
that are told wrong, and there are no others (`tellsDisjoint_iff`).  The canonical empty box has the
whole line as its gap on every axis, so that only the unbounded box reaches over it.
-/

set_option autoImplicit false

namespace RegionRules
namespace Bounds

variable {a b : Bounds}

/-- The boxes are told to be disjoint just if they share no point.  A point with NaN among its
coordinates lies in no box. -/
def TellsDisjoint (a b : Bounds) : Prop :=
  a.disjoint b = true ↔ ∀ p, ¬ (a.contains p = true ∧ b.contains p = true)

/-- On every axis, neither box ends before the other begins. -/
def Meets (a b : Bounds) : Prop :=
  ∀ i, b.lower.coord i ≤ a.upper.coord i ∧ a.lower.coord i ≤ b.upper.coord i

lemma Meets.symm (h : a.Meets b) : b.Meets a := fun i => (h i).symm

/-! ## Boxes that meet -/

lemma not_disjoint_of_meets (h : a.Meets b) : ¬ a.disjoint b = true := by
  rw [disjoint_iff]
  rintro ⟨i, hi | hi⟩
  exacts [Binary64.not_le_of_lt hi (h i).1, Binary64.not_le_of_lt hi (h i).2]

/-- An empty box that meets another is told wrong: they share no point. -/
lemma not_tellsDisjoint_of_meets (h : a.Meets b) (he : a.isEmpty = true ∨ b.isEmpty = true) :
    ¬ a.TellsDisjoint b := by
  intro htells
  refine not_disjoint_of_meets h (htells.2 ?_)
  rintro p ⟨ha, hb⟩
  exact he.elim (not_contains_of_isEmpty · ha) (not_contains_of_isEmpty · hb)

namespace NaNFree

variable (ha : a.NaNFree) (hb : b.NaNFree)

include ha hb

lemma disjoint_iff_not_meets : a.disjoint b = true ↔ ¬ a.Meets b := by
  refine ⟨fun h hmeets => not_disjoint_of_meets hmeets h, fun h => ?_⟩
  by_contra hnot
  rw [disjoint_iff] at hnot
  push Not at hnot
  exact h fun i => ⟨Binary64.le_of_not_lt (ha i).2 (hb i).1 (hnot i).1,
    Binary64.le_of_not_lt (hb i).2 (ha i).1 (hnot i).2⟩

/-- **Boxes that are not empty and meet on every axis share a point,** the lower corner of their
overlap. -/
lemma exists_contains_of_meets (ea : a.isEmpty = false) (eb : b.isEmpty = false)
    (h : a.Meets b) : ∃ p, a.contains p = true ∧ b.contains p = true := by
  have he : (a.overlap b).isEmpty = false := by
    rw [← Bool.not_eq_true, Bounds.isEmpty_iff]
    rintro ⟨i, hi⟩
    refine Binary64.not_le_of_lt hi ?_
    rw [Bounds.overlap, Vec3.coord_greater, Vec3.coord_lesser,
      Binary64.greater_le_iff (ha i).1 (hb i).1, Binary64.le_lesser_iff (ha i).2 (hb i).2,
      Binary64.le_lesser_iff (ha i).2 (hb i).2]
    exact ⟨⟨ha.lower_le_upper ea i, (h i).2⟩, (h i).1, hb.lower_le_upper eb i⟩
  exact ⟨_, (contains_overlap_iff ha hb).1 ((ha.overlap hb).contains_lower he)⟩

lemma tellsDisjoint_of_not_isEmpty (ea : a.isEmpty = false) (eb : b.isEmpty = false) :
    a.TellsDisjoint b := by
  constructor
  · rintro h p ⟨hpa, hpb⟩
    exact not_contains_of_disjoint h hpa hpb
  · intro hnone
    rw [ha.disjoint_iff_not_meets hb]
    intro hmeets
    obtain ⟨p, hp⟩ := ha.exists_contains_of_meets hb ea eb hmeets
    exact hnone p hp

end NaNFree

/-! ## Reaching over the canonical empty box -/

lemma empty_meets_iff : empty.Meets b ↔ b.same unbounded = true := by
  rw [same_iff_faces]
  simp only [Meets, empty, unbounded, Vec3.coord_splat]
  constructor
  · intro h
    refine ⟨fun i => ⟨Binary64.infinity_le ?_, Binary64.le_infinity ?_⟩, h⟩
    exacts [(Binary64.le_iff.1 (h i).1).1, (Binary64.le_iff.1 (h i).2).2.1]
  · exact And.right

/-! ## The test -/

/-- **Boxes are told wrong if and only if one of them is empty and they meet on every axis.**  If
the only empty box in use is the canonical one, this happens just between it and the unbounded
box. -/
theorem tellsDisjoint_iff (ha : a.NaNFree) (hb : b.NaNFree) :
    (a.TellsDisjoint b ↔ ¬ ((a.isEmpty = true ∨ b.isEmpty = true) ∧ a.Meets b)) ∧
      (a.IsRegular → b.IsRegular → (a.TellsDisjoint b ↔
        ¬ (a = empty ∧ b.same unbounded = true ∨ b = empty ∧ a.same unbounded = true))) := by
  have hwrong : a.TellsDisjoint b ↔ ¬ ((a.isEmpty = true ∨ b.isEmpty = true) ∧ a.Meets b) := by
    constructor
    · rintro htells ⟨he, hmeets⟩
      exact not_tellsDisjoint_of_meets hmeets he htells
    · intro h
      by_cases he : a.isEmpty = true ∨ b.isEmpty = true
      · -- An empty box that misses the other one is told right.
        have hdisjoint : a.disjoint b = true :=
          (ha.disjoint_iff_not_meets hb).2 fun hmeets => h ⟨he, hmeets⟩
        exact iff_of_true hdisjoint fun p hp => not_contains_of_disjoint hdisjoint hp.1 hp.2
      · rw [not_or, Bool.not_eq_true, Bool.not_eq_true] at he
        exact ha.tellsDisjoint_of_not_isEmpty hb he.1 he.2
  refine ⟨hwrong, fun hra hrb => hwrong.trans (not_congr ?_)⟩
  constructor
  · rintro ⟨ea | eb, hmeets⟩
    · obtain rfl := hra.eq_empty ea
      exact .inl ⟨rfl, empty_meets_iff.1 hmeets⟩
    · obtain rfl := hrb.eq_empty eb
      exact .inr ⟨rfl, empty_meets_iff.1 hmeets.symm⟩
  · rintro (⟨rfl, h⟩ | ⟨rfl, h⟩)
    · exact ⟨.inl isEmpty_empty, empty_meets_iff.2 h⟩
    · exact ⟨.inr isEmpty_empty, (empty_meets_iff.2 h).symm⟩

section Slabs

/-- The box between two numbers on every axis, which need not be in order. -/
def slab (lower upper : Int) : Bounds := ⟨Vec3.splat (.ofInt lower), Vec3.splat (.ofInt upper)⟩

lemma naNFree_slab {lower upper : Int} (h : (Binary64.ofInt lower ≠ .nan) ∧
    Binary64.ofInt upper ≠ .nan) : (slab lower upper).NaNFree := by
  intro i
  rw [slab, Vec3.coord_splat, Vec3.coord_splat]
  exact h

/-- Boxes that touch are told to overlap, and they do.  The canonical empty box is told to miss a
slab, and it does. -/
theorem slab_tellsDisjoint :
    (slab 0 1).NaNFree ∧ (slab 1 2).NaNFree ∧ empty.NaNFree ∧
      ((slab 0 1).disjoint (slab 1 2) = false ∧ (slab 0 1).TellsDisjoint (slab 1 2)) ∧
      empty.disjoint (slab 0 1) = true ∧ empty.TellsDisjoint (slab 0 1) := by
  have hlow : (slab 0 1).NaNFree := naNFree_slab (by decide +kernel)
  have hhigh : (slab 1 2).NaNFree := naNFree_slab (by decide +kernel)
  have hslab : (slab 0 1).IsRegular := isRegular_of_not_isEmpty hlow (by decide +kernel)
  refine ⟨hlow, hhigh, naNFree_empty, ⟨by decide +kernel, ?_⟩, by decide +kernel, ?_⟩
  · exact (tellsDisjoint_iff hlow hhigh).1.2 fun h =>
      absurd h.1 (by decide +kernel)
  · exact ((tellsDisjoint_iff naNFree_empty hlow).2 isRegular_empty hslab).2 (by decide +kernel)

/-- The canonical empty box is told to overlap the unbounded one, and an empty box with its corners
in the wrong order to overlap a slab around them. -/
theorem not_tellsDisjoint_unbounded :
    (empty.NaNFree ∧ unbounded.NaNFree ∧ ¬ empty.TellsDisjoint unbounded) ∧
      (slab 5 3).NaNFree ∧ (slab 0 10).NaNFree ∧ (slab 5 3).isEmpty = true ∧
        ¬ (slab 5 3).TellsDisjoint (slab 0 10) := by
  have hinverted : (slab 5 3).isEmpty = true := by decide +kernel
  have hmeets : (slab 5 3).Meets (slab 0 10) := Axis.forall_iff.2 (by decide +kernel)
  refine ⟨⟨naNFree_empty, naNFree_unbounded, ?_⟩, naNFree_slab (by decide +kernel),
    naNFree_slab (by decide +kernel), hinverted, ?_⟩
  · exact not_tellsDisjoint_of_meets (empty_meets_iff.2 (by decide +kernel)) (.inl isEmpty_empty)
  · exact not_tellsDisjoint_of_meets hmeets (.inl hinverted)

end Slabs

end Bounds
end RegionRules
