import RegionRules.Proofs.Bounds.Membership

/-!
# The algebra of boxes

A box that is free of NaN has its lower and its upper corner among its points, unless it is empty.
So it is known by its points: it lies within another box if its faces lie between the faces of that
one (`Bounds.NaNFree.within_iff`), and an empty box lies within every box.

In this order `inter` gives the greatest box within both of its arguments, and `union` the least
box around both (`within_inter_iff`, `NaNFree.union_within_iff`).  Boxes that are within each other
have numerically equal faces as long as only one empty box is in use (`IsRegular.same_of_within`).
With that, every law of the algebra is a law of `and` (`IsRegular.lattice_spec`).

Equality is numerical throughout: the union of boxes with the faces `0` and `-0` has one or the
other, depending on the order of its arguments.
-/

set_option autoImplicit false

namespace RegionRules

namespace Binary64

variable {a b c : Binary64}

lemma same_iff_le : a.same b = true ↔ a ≤ b ∧ b ≤ a := by
  rcases a with _ | ⟨s, r, hr⟩
  · simp [same, le_iff]
  rcases b with _ | ⟨t, q, hq⟩
  · simp [same, le_iff]
  · rw [same_num, decide_eq_true_iff, le_antisymm_iff]
    simp [le_iff, place]

lemma le_lesser_iff (ha : a ≠ .nan) (hb : b ≠ .nan) : c ≤ lesser a b ↔ c ≤ a ∧ c ≤ b := by
  constructor
  · intro h
    exact ⟨le_trans_num h (lesser_le ha hb).1, le_trans_num h (lesser_le ha hb).2⟩
  · rintro ⟨hca, hcb⟩
    exact lesser_rec (P := (c ≤ ·)) hca hcb

lemma greater_le_iff (ha : a ≠ .nan) (hb : b ≠ .nan) : greater a b ≤ c ↔ a ≤ c ∧ b ≤ c := by
  constructor
  · intro h
    exact ⟨le_trans_num (le_greater ha hb).1 h, le_trans_num (le_greater ha hb).2 h⟩
  · rintro ⟨hac, hbc⟩
    exact greater_rec (P := (· ≤ c)) hac hbc

lemma infinity_le (ha : a ≠ .nan) : infinity true ≤ a := by
  have hplace := natAbs_place_le a
  refine le_iff.2 ⟨num_ne_nan, ha, ?_⟩
  rw [infinity, place, position, if_pos rfl]
  omega

lemma le_infinity (ha : a ≠ .nan) : a ≤ infinity false := by
  have hplace := natAbs_place_le a
  refine le_iff.2 ⟨ha, num_ne_nan, ?_⟩
  rw [infinity, place, position, if_neg Bool.false_ne_true]
  omega

end Binary64

namespace Bounds

variable {a b c : Bounds} {p : Vec3}

/-! ## Points of a box -/

/-- Every point of the first box is a point of the second. -/
def Within (a b : Bounds) : Prop := ∀ p, a.contains p = true → b.contains p = true

lemma within_of_isEmpty (h : a.isEmpty = true) : a.Within b := fun _ hp =>
  absurd hp (not_contains_of_isEmpty h)

namespace NaNFree

lemma contains_lower (h : b.NaNFree) (he : b.isEmpty = false) : b.contains b.lower = true :=
  contains_iff.2 fun i => ⟨Binary64.le_refl_num (h i).1, h.lower_le_upper he i⟩

lemma contains_upper (h : b.NaNFree) (he : b.isEmpty = false) : b.contains b.upper = true :=
  contains_iff.2 fun i => ⟨h.lower_le_upper he i, Binary64.le_refl_num (h i).2⟩

lemma isEmpty_iff (h : b.NaNFree) : b.isEmpty = true ↔ ∀ p, ¬ b.contains p = true := by
  constructor
  · exact fun he _ => not_contains_of_isEmpty he
  · intro hnone
    by_contra he
    exact hnone _ (h.contains_lower (Bool.eq_false_iff.2 he))

/-- **A box that is not empty lies within another if its faces do.** -/
lemma within_iff (h : a.NaNFree) (he : a.isEmpty = false) :
    a.Within b ↔ ∀ i, b.lower.coord i ≤ a.lower.coord i ∧ a.upper.coord i ≤ b.upper.coord i := by
  constructor
  · intro hwithin i
    exact ⟨(contains_iff.1 (hwithin _ (h.contains_lower he)) i).1,
      (contains_iff.1 (hwithin _ (h.contains_upper he)) i).2⟩
  · intro hfaces p hp
    refine contains_iff.2 fun i => ?_
    have hpoint := contains_iff.1 hp i
    exact ⟨Binary64.le_trans_num (hfaces i).1 hpoint.1,
      Binary64.le_trans_num hpoint.2 (hfaces i).2⟩

end NaNFree

/-! ## Overlap -/

/-- What the two boxes have in common; inverted on some axis if that is nothing. -/
def overlap (a b : Bounds) : Bounds := ⟨a.lower.greater b.lower, a.upper.lesser b.upper⟩

lemma inter_eq (a b : Bounds) :
    a.inter b = if (a.overlap b).isEmpty then empty else a.overlap b := rfl

section Combined

variable (ha : a.NaNFree) (hb : b.NaNFree)

include ha hb

lemma NaNFree.overlap : (a.overlap b).NaNFree := by
  intro i
  rw [Bounds.overlap, Vec3.coord_greater, Vec3.coord_lesser]
  exact ⟨Binary64.greater_rec (P := (· ≠ .nan)) (ha i).1 (hb i).1,
    Binary64.lesser_rec (P := (· ≠ .nan)) (ha i).2 (hb i).2⟩

lemma contains_overlap_iff :
    (a.overlap b).contains p = true ↔ a.contains p = true ∧ b.contains p = true := by
  simp only [contains_iff, ← forall_and]
  refine forall_congr' fun i => ?_
  rw [overlap, Vec3.coord_greater, Vec3.coord_lesser, Binary64.greater_le_iff (ha i).1 (hb i).1,
    Binary64.le_lesser_iff (ha i).2 (hb i).2]
  tauto

/-- **The overlap of two boxes has the points that both have.** -/
lemma contains_inter_iff :
    (a.inter b).contains p = true ↔ a.contains p = true ∧ b.contains p = true := by
  rw [← contains_overlap_iff ha hb, inter_eq]
  split_ifs with he
  · exact iff_of_false (naNFree_empty.isEmpty_iff.1 isEmpty_empty p)
      ((ha.overlap hb).isEmpty_iff.1 he p)
  · rfl

lemma NaNFree.within_inter_iff : c.Within (a.inter b) ↔ c.Within a ∧ c.Within b := by
  simp only [Within, contains_inter_iff ha hb, imp_and, forall_and]

/-- **The union of two boxes is the least box around both.** -/
lemma NaNFree.union_within_iff : (a.union b).Within c ↔ a.Within c ∧ b.Within c := by
  obtain ⟨ea, h⟩ | ⟨-, eb, h⟩ | ⟨ea, eb, h⟩ := union_cases a b <;> rw [h]
  · rw [and_iff_right (within_of_isEmpty ea)]
  · rw [and_iff_left (within_of_isEmpty eb)]
  · rw [(ha.hull hb).within_iff (ha.isEmpty_hull hb ea), ha.within_iff ea, hb.within_iff eb,
      ← forall_and]
    refine forall_congr' fun i => ?_
    rw [coord_lower_hull, coord_upper_hull, Binary64.le_lesser_iff (ha i).1 (hb i).1,
      Binary64.greater_le_iff (ha i).2 (hb i).2]
    tauto

end Combined

/-! ## Regular boxes -/

/-- The box is free of NaN, and only the canonical box is empty. -/
structure IsRegular (b : Bounds) : Prop where
  naNFree : b.NaNFree
  eq_empty : b.isEmpty = true → b = empty

lemma isRegular_empty : empty.IsRegular := ⟨naNFree_empty, fun _ => rfl⟩

lemma isRegular_of_not_isEmpty (h : b.NaNFree) (he : b.isEmpty = false) : b.IsRegular :=
  ⟨h, fun h => absurd (h.symm.trans he) (by decide)⟩

lemma isRegular_unbounded : unbounded.IsRegular :=
  isRegular_of_not_isEmpty naNFree_unbounded (by decide +kernel)

lemma same_iff_faces : a.same b = true ↔
    (∀ i, b.lower.coord i ≤ a.lower.coord i ∧ a.upper.coord i ≤ b.upper.coord i) ∧
      ∀ i, a.lower.coord i ≤ b.lower.coord i ∧ b.upper.coord i ≤ a.upper.coord i := by
  simp only [same, Vec3.same, Bool.and_eq_true, Binary64.same_iff_le, Axis.forall_iff, Vec3.coord]
  tauto

namespace IsRegular

section Pair

variable (ha : a.IsRegular) (hb : b.IsRegular)

include ha hb

/-- **Regular boxes within each other are the same.** -/
lemma same_of_within (hab : a.Within b) (hba : b.Within a) : a.same b = true := by
  by_cases ea : a.isEmpty = true
  · have eb : b.isEmpty = true := hb.naNFree.isEmpty_iff.2 fun p hp =>
      ha.naNFree.isEmpty_iff.1 ea p (hba p hp)
    rw [ha.eq_empty ea, hb.eq_empty eb]
    decide +kernel
  have eb : b.isEmpty = false := Bool.eq_false_iff.2 fun eb =>
    ea (ha.naNFree.isEmpty_iff.2 fun p hp => hb.naNFree.isEmpty_iff.1 eb p (hab p hp))
  rw [Bool.not_eq_true] at ea
  exact same_iff_faces.2 ⟨(ha.naNFree.within_iff ea).1 hab, (hb.naNFree.within_iff eb).1 hba⟩

lemma same_of_forall_within_iff (h : ∀ c : Bounds, a.Within c ↔ b.Within c) : a.same b = true :=
  ha.same_of_within hb ((h b).2 fun _ => id) ((h a).1 fun _ => id)

lemma same_of_forall_iff_within (h : ∀ c : Bounds, c.Within a ↔ c.Within b) : a.same b = true :=
  ha.same_of_within hb ((h a).1 fun _ => id) ((h b).2 fun _ => id)

lemma union : (a.union b).IsRegular := by
  obtain ⟨-, h⟩ | ⟨-, -, h⟩ | ⟨ea, -, h⟩ := union_cases a b <;> rw [h]
  · exact hb
  · exact ha
  · exact isRegular_of_not_isEmpty (ha.naNFree.hull hb.naNFree)
      (ha.naNFree.isEmpty_hull hb.naNFree ea)

lemma inter : (a.inter b).IsRegular := by
  rw [inter_eq]
  split_ifs with he
  · exact isRegular_empty
  · exact isRegular_of_not_isEmpty (ha.naNFree.overlap hb.naNFree) (Bool.eq_false_iff.2 he)

lemma union_within_iff : (a.union b).Within c ↔ a.Within c ∧ b.Within c :=
  ha.naNFree.union_within_iff hb.naNFree

lemma within_inter_iff : c.Within (a.inter b) ↔ c.Within a ∧ c.Within b :=
  ha.naNFree.within_inter_iff hb.naNFree

end Pair

end IsRegular

/-! ## Laws -/

/-- The laws of a lattice with a least and a greatest element, for three boxes that are compared by
the numbers at their faces. -/
structure LatticeLaws (a b c : Bounds) : Prop where
  union_comm : (a.union b).same (b.union a) = true
  inter_comm : (a.inter b).same (b.inter a) = true
  union_assoc : ((a.union b).union c).same (a.union (b.union c)) = true
  inter_assoc : ((a.inter b).inter c).same (a.inter (b.inter c)) = true
  union_self : (a.union a).same a = true
  inter_self : (a.inter a).same a = true
  union_inter_self : (a.union (a.inter b)).same a = true
  inter_union_self : (a.inter (a.union b)).same a = true
  empty_union : (empty.union a).same a = true
  union_empty : (a.union empty).same a = true
  unbounded_inter : (unbounded.inter a).same a = true
  inter_unbounded : (a.inter unbounded).same a = true

section Laws

variable (ha : a.IsRegular) (hb : b.IsRegular) (hc : c.IsRegular)

lemma empty_within (a : Bounds) : empty.Within a := within_of_isEmpty isEmpty_empty

include ha in
lemma IsRegular.within_unbounded : a.Within unbounded := by
  intro p hp
  refine contains_iff.2 fun i => ?_
  have hpoint := contains_iff.1 hp i
  have hlower := Binary64.infinity_le (ha.naNFree i).1
  have hupper := Binary64.le_infinity (ha.naNFree i).2
  rw [unbounded, Vec3.coord_splat, Vec3.coord_splat]
  exact ⟨Binary64.le_trans_num hlower hpoint.1, Binary64.le_trans_num hpoint.2 hupper⟩

include ha hb hc

/-- Two boxes with the same boxes around them are the same, and so are two boxes with the same boxes
within them; a union is known by the former and an overlap by the latter. -/
lemma latticeLaws : LatticeLaws a b c where
  union_comm := (ha.union hb).same_of_forall_within_iff (hb.union ha) fun d => by
    rw [ha.union_within_iff hb, hb.union_within_iff ha, and_comm]
  inter_comm := (ha.inter hb).same_of_forall_iff_within (hb.inter ha) fun d => by
    rw [ha.within_inter_iff hb, hb.within_inter_iff ha, and_comm]
  union_assoc :=
    ((ha.union hb).union hc).same_of_forall_within_iff (ha.union (hb.union hc)) fun d => by
      rw [(ha.union hb).union_within_iff hc, ha.union_within_iff hb,
        ha.union_within_iff (hb.union hc), hb.union_within_iff hc, and_assoc]
  inter_assoc :=
    ((ha.inter hb).inter hc).same_of_forall_iff_within (ha.inter (hb.inter hc)) fun d => by
      rw [(ha.inter hb).within_inter_iff hc, ha.within_inter_iff hb,
        ha.within_inter_iff (hb.inter hc), hb.within_inter_iff hc, and_assoc]
  union_self := (ha.union ha).same_of_forall_within_iff ha fun d => by
    rw [ha.union_within_iff ha, and_self_iff]
  inter_self := (ha.inter ha).same_of_forall_iff_within ha fun d => by
    rw [ha.within_inter_iff ha, and_self_iff]
  union_inter_self := (ha.union (ha.inter hb)).same_of_forall_within_iff ha fun d => by
    rw [ha.union_within_iff (ha.inter hb), and_iff_left_iff_imp]
    exact fun h p hp => h p (((ha.within_inter_iff hb).1 fun _ => id).1 p hp)
  inter_union_self := (ha.inter (ha.union hb)).same_of_forall_iff_within ha fun d => by
    rw [ha.within_inter_iff (ha.union hb), and_iff_left_iff_imp]
    exact fun h p hp => ((ha.union_within_iff hb).1 fun _ => id).1 p (h p hp)
  empty_union := (isRegular_empty.union ha).same_of_forall_within_iff ha fun d => by
    rw [isRegular_empty.union_within_iff ha, and_iff_right (empty_within d)]
  union_empty := (ha.union isRegular_empty).same_of_forall_within_iff ha fun d => by
    rw [ha.union_within_iff isRegular_empty, and_iff_left (empty_within d)]
  unbounded_inter := (isRegular_unbounded.inter ha).same_of_forall_iff_within ha fun d => by
    rw [isRegular_unbounded.within_inter_iff ha, and_iff_right_iff_imp]
    exact fun h p hp => ha.within_unbounded p (h p hp)
  inter_unbounded := (ha.inter isRegular_unbounded).same_of_forall_iff_within ha fun d => by
    rw [ha.within_inter_iff isRegular_unbounded, and_iff_left_iff_imp]
    exact fun h p hp => ha.within_unbounded p (h p hp)

/-- **Regular boxes form a lattice.**  The overlap of two regular boxes has the points that both
have, and is empty just if there are none.  Their union has the points of both, and no box that has
these, of whatever kind, lacks a point of it.  Union and overlap obey the laws of a lattice, with
the empty box at the bottom and the unbounded one at the top, and they are regular again. -/
theorem IsRegular.lattice_spec :
    (∀ p, (a.inter b).contains p = true ↔ a.contains p = true ∧ b.contains p = true) ∧
      ((a.inter b).isEmpty = true ↔ ∀ p, ¬ (a.contains p = true ∧ b.contains p = true)) ∧
      (∀ p, a.contains p = true ∨ b.contains p = true → (a.union b).contains p = true) ∧
      (∀ d : Bounds, (∀ p, a.contains p = true ∨ b.contains p = true → d.contains p = true) →
        ∀ p, (a.union b).contains p = true → d.contains p = true) ∧
      LatticeLaws a b c ∧
      ((a.union b).IsRegular ∧ (a.inter b).IsRegular ∧ empty.IsRegular ∧
        unbounded.IsRegular) := by
  have hinter (p : Vec3) := contains_inter_iff (p := p) ha.naNFree hb.naNFree
  refine ⟨hinter, ?_, ?_, ?_, latticeLaws ha hb hc, ha.union hb, ha.inter hb, isRegular_empty,
    isRegular_unbounded⟩
  · rw [(ha.inter hb).naNFree.isEmpty_iff]
    simp only [hinter]
  · obtain ⟨hleft, hright⟩ := (ha.union_within_iff hb).1 fun _ => id
    rintro p (hp | hp)
    exacts [hleft p hp, hright p hp]
  · intro d hd
    exact (ha.union_within_iff hb).2 ⟨fun p hp => hd p (.inl hp), fun p hp => hd p (.inr hp)⟩

end Laws

/-- The points with no negative coordinate. -/
def octant : Bounds := ⟨Vec3.splat (.zero false), Vec3.splat (.infinity false)⟩

/-- The unit cube, with its lower faces at `-0`. -/
def signedCube : Bounds := ⟨Vec3.splat (.zero true), Vec3.splat .one⟩

/-- The lower faces of the union are at one zero or the other, depending on the order of the boxes,
and the laws hold all the same. -/
theorem octant_signedCube_lattice :
    (octant.IsRegular ∧ signedCube.IsRegular ∧ empty.IsRegular) ∧
      octant.union signedCube ≠ signedCube.union octant ∧
      LatticeLaws octant signedCube empty ∧
      ∀ p, (octant.inter signedCube).contains p = true ↔
        octant.contains p = true ∧ signedCube.contains p = true := by
  have hregular {b : Bounds} (hfaces : (b.lower.x ≠ .nan ∧ b.upper.x ≠ .nan) ∧
      (b.lower.y ≠ .nan ∧ b.upper.y ≠ .nan) ∧ b.lower.z ≠ .nan ∧ b.upper.z ≠ .nan)
      (he : b.isEmpty = false) : b.IsRegular :=
    isRegular_of_not_isEmpty (Axis.forall_iff.2 hfaces) he
  have hoctant : octant.IsRegular := hregular (by decide +kernel) (by decide +kernel)
  have hcube : signedCube.IsRegular := hregular (by decide +kernel) (by decide +kernel)
  obtain ⟨hinter, -, -, -, hlaws, -⟩ := hoctant.lattice_spec hcube isRegular_empty
  exact ⟨⟨hoctant, hcube, isRegular_empty⟩, by decide +kernel, hlaws, hinter⟩

end Bounds
end RegionRules
