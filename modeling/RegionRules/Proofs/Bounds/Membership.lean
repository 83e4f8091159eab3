import RegionRules.Proofs.Binary64.Coordinates
import RegionRules.Bounds.Basic

/-!
# Boxes and their points

A box holds a point when it does so on every axis, and it is empty when it is inverted on some
axis.  This module says so once, with the axis as a variable, and derives what summaries of regions
rest on:

* a box with a point is not empty (`not_isEmpty_of_contains`), and boxes that miss each other
  share no point (`not_contains_of_disjoint`);
* an empty box leaves no trace in a union, and the union of other boxes is their hull
  (`union_cases`), which reaches around both (`NaNFree.hull_around`);
* so the union of two boxes whose blocks can be listed is again one (`isBlockBounded_union`), and
  a union has the points of both boxes (`contains_union`).

The last fact needs the boxes to be free of NaN, or empty (`IsClean`).  Every box whose blocks can
be listed is one or the other.
-/

set_option autoImplicit false

namespace RegionRules

/-- The axes of the world. -/
inductive Axis where
  | x
  | y
  | z
  deriving DecidableEq

/-- The number of a vector on an axis. -/
def Vec3.coord (v : Vec3) : Axis → Binary64
  | .x => v.x
  | .y => v.y
  | .z => v.z

/-- The coordinate of a block on an axis. -/
def BlockPos.coord (b : BlockPos) : Axis → Int32
  | .x => b.x
  | .y => b.y
  | .z => b.z

lemma Axis.forall_iff {P : Axis → Prop} : (∀ i, P i) ↔ P .x ∧ P .y ∧ P .z :=
  ⟨fun h => ⟨h .x, h .y, h .z⟩, fun ⟨hx, hy, hz⟩ i => by cases i <;> assumption⟩

lemma Axis.exists_iff {P : Axis → Prop} : (∃ i, P i) ↔ P .x ∨ P .y ∨ P .z := by
  constructor
  · rintro ⟨_ | _ | _, h⟩
    exacts [.inl h, .inr (.inl h), .inr (.inr h)]
  · rintro (h | h | h)
    exacts [⟨_, h⟩, ⟨_, h⟩, ⟨_, h⟩]

lemma BlockPos.ext_coord {a b : BlockPos} (h : ∀ i, a.coord i = b.coord i) : a = b := by
  obtain ⟨ax, ay, az⟩ := a
  obtain ⟨bx, «by», bz⟩ := b
  have := Axis.forall_iff.1 h
  simp_all [coord]

namespace Binary64

/-! ## The order of numbers

Numbers other than NaN are ordered by their places. -/

variable {a b c : Binary64}

lemma le_trans_num (h : a ≤ b) (h' : b ≤ c) : a ≤ c := by
  rw [le_iff] at *
  exact ⟨h.1, h'.2.1, h.2.2.trans h'.2.2⟩

lemma not_le_of_lt (h : a < b) : ¬ b ≤ a := by
  rw [lt_iff] at h
  rw [le_iff]
  omega

lemma le_of_not_lt (ha : a ≠ .nan) (hb : b ≠ .nan) (h : ¬ a < b) : b ≤ a := by
  rw [lt_iff] at h
  rw [le_iff]
  exact ⟨hb, ha, by by_contra hlt; exact h ⟨ha, hb, by omega⟩⟩

lemma lt_of_not_le (ha : a ≠ .nan) (hb : b ≠ .nan) (h : ¬ a ≤ b) : b < a := by
  rw [le_iff] at h
  rw [lt_iff]
  exact ⟨hb, ha, by by_contra hle; exact h ⟨ha, hb, by omega⟩⟩

lemma le_refl_num (ha : a ≠ .nan) : a ≤ a := le_iff.2 ⟨ha, ha, le_rfl⟩

lemma le_of_lt_num (h : a < b) : a ≤ b := by
  rw [lt_iff] at h
  exact le_iff.2 ⟨h.1, h.2.1, h.2.2.le⟩

/-- What holds of two numbers holds of the lesser of them. -/
lemma lesser_rec {P : Binary64 → Prop} (ha : P a) (hb : P b) : P (lesser a b) := by
  unfold lesser
  split_ifs <;> assumption

/-- What holds of two numbers holds of the greater of them. -/
lemma greater_rec {P : Binary64 → Prop} (ha : P a) (hb : P b) : P (greater a b) := by
  unfold greater
  split_ifs <;> assumption

lemma not_greater_lt_lesser (a b : Binary64) : ¬ greater a b < lesser a b := by
  unfold greater lesser
  split_ifs <;> simp only [lt_iff] at * <;> omega

lemma lesser_le (ha : a ≠ .nan) (hb : b ≠ .nan) : lesser a b ≤ a ∧ lesser a b ≤ b := by
  unfold lesser
  split_ifs with h
  · exact ⟨le_refl_num ha, le_of_lt_num h⟩
  · exact ⟨le_of_not_lt ha hb h, le_refl_num hb⟩

lemma le_greater (ha : a ≠ .nan) (hb : b ≠ .nan) : a ≤ greater a b ∧ b ≤ greater a b := by
  unfold greater
  split_ifs with h
  · exact ⟨le_refl_num ha, le_of_lt_num h⟩
  · exact ⟨le_of_not_lt hb ha h, le_refl_num hb⟩

end Binary64

/-! ## Axis by axis -/

lemma Vec3.allLe_iff {a b : Vec3} : a.allLe b = true ↔ ∀ i, a.coord i ≤ b.coord i := by
  rw [Axis.forall_iff]
  simp [allLe, coord, and_assoc]

lemma Vec3.anyLt_iff {a b : Vec3} : a.anyLt b = true ↔ ∃ i, a.coord i < b.coord i := by
  rw [Axis.exists_iff]
  simp [anyLt, coord, or_assoc]

lemma Vec3.coord_lesser (a b : Vec3) (i : Axis) :
    (a.lesser b).coord i = (a.coord i).lesser (b.coord i) := by
  cases i <;> rfl

lemma Vec3.coord_greater (a b : Vec3) (i : Axis) :
    (a.greater b).coord i = (a.coord i).greater (b.coord i) := by
  cases i <;> rfl

lemma Vec3.coord_splat (a : Binary64) (i : Axis) : (Vec3.splat a).coord i = a := by
  cases i <;> rfl

lemma Vec3.coord_add (a b : Vec3) (i : Axis) : (a + b).coord i = a.coord i + b.coord i := by
  cases i <;> rfl

namespace Bounds

lemma contains_iff {b : Bounds} {p : Vec3} :
    b.contains p = true ↔ ∀ i, b.lower.coord i ≤ p.coord i ∧ p.coord i ≤ b.upper.coord i := by
  simp only [contains, Bool.and_eq_true, Vec3.allLe_iff, forall_and]

lemma isEmpty_iff {b : Bounds} :
    b.isEmpty = true ↔ ∃ i, b.upper.coord i < b.lower.coord i := Vec3.anyLt_iff

lemma not_isEmpty_of_contains {b : Bounds} {p : Vec3} (h : b.contains p = true) :
    b.isEmpty = false := by
  rw [← Bool.not_eq_true, isEmpty_iff]
  rintro ⟨i, hi⟩
  have := contains_iff.1 h i
  exact Binary64.not_le_of_lt hi (Binary64.le_trans_num this.1 this.2)

lemma not_contains_of_isEmpty {b : Bounds} {p : Vec3} (h : b.isEmpty = true) :
    ¬ b.contains p = true := by
  intro hp
  rw [not_isEmpty_of_contains hp] at h
  cases h

lemma not_isEmpty_spanning (p q : Vec3) : ¬ (spanning p q).isEmpty = true := by
  rw [isEmpty_iff]
  rintro ⟨i, hi⟩
  rw [spanning, Vec3.coord_lesser, Vec3.coord_greater] at hi
  exact Binary64.not_greater_lt_lesser _ _ hi

lemma disjoint_iff {a b : Bounds} : a.disjoint b = true ↔
    ∃ i, a.upper.coord i < b.lower.coord i ∨ b.upper.coord i < a.lower.coord i := by
  rw [disjoint, Bool.or_eq_true, Vec3.anyLt_iff, Vec3.anyLt_iff, exists_or]

/-- Boxes that miss each other share no point. -/
lemma not_contains_of_disjoint {a b : Bounds} {p : Vec3} (h : a.disjoint b = true)
    (ha : a.contains p = true) : ¬ b.contains p = true := by
  intro hb
  obtain ⟨i, hi | hi⟩ := disjoint_iff.1 h
  · exact Binary64.not_le_of_lt hi
      (Binary64.le_trans_num (contains_iff.1 hb i).1 (contains_iff.1 ha i).2)
  · exact Binary64.not_le_of_lt hi
      (Binary64.le_trans_num (contains_iff.1 ha i).1 (contains_iff.1 hb i).2)

/-! ## Boxes free of NaN -/

/-- No face of the box is at NaN. -/
def NaNFree (b : Bounds) : Prop := ∀ i, b.lower.coord i ≠ .nan ∧ b.upper.coord i ≠ .nan

lemma naNFree_empty : empty.NaNFree := by
  intro i
  cases i <;> exact ⟨by decide, by decide⟩

lemma naNFree_unbounded : unbounded.NaNFree := by
  intro i
  cases i <;> exact ⟨by decide, by decide⟩

lemma isEmpty_empty : empty.isEmpty = true := by decide

lemma NaNFree.lower_le_upper {b : Bounds} (h : b.NaNFree) (he : b.isEmpty = false) (i : Axis) :
    b.lower.coord i ≤ b.upper.coord i := by
  have hproper : ¬ b.upper.coord i < b.lower.coord i := fun hlt =>
    Bool.eq_false_iff.1 he (isEmpty_iff.2 ⟨i, hlt⟩)
  exact Binary64.le_of_not_lt (h i).2 (h i).1 hproper

/-! ## Hulls -/

/-- The least box around two boxes that are not empty. -/
def hull (a b : Bounds) : Bounds := ⟨a.lower.lesser b.lower, a.upper.greater b.upper⟩

section Hull

variable {a b : Bounds} {p : Vec3}

lemma coord_lower_hull (a b : Bounds) (i : Axis) :
    (a.hull b).lower.coord i = (a.lower.coord i).lesser (b.lower.coord i) := Vec3.coord_lesser _ _ i

lemma coord_upper_hull (a b : Bounds) (i : Axis) :
    (a.hull b).upper.coord i = (a.upper.coord i).greater (b.upper.coord i) :=
  Vec3.coord_greater _ _ i

/-- An empty box leaves no trace in a union; the union of other boxes is their hull. -/
lemma union_cases (a b : Bounds) :
    (a.isEmpty = true ∧ a.union b = b) ∨
      (a.isEmpty = false ∧ b.isEmpty = true ∧ a.union b = a) ∨
      (a.isEmpty = false ∧ b.isEmpty = false ∧ a.union b = a.hull b) := by
  rw [union]
  cases ha : a.isEmpty with
  | true => exact .inl ⟨rfl, rfl⟩
  | false =>
    cases hb : b.isEmpty with
    | true => exact .inr (.inl ⟨rfl, rfl, rfl⟩)
    | false => exact .inr (.inr ⟨rfl, rfl, rfl⟩)

namespace NaNFree

variable (ha : a.NaNFree) (hb : b.NaNFree)

include ha hb

lemma hull : (a.hull b).NaNFree := by
  intro i
  rw [coord_lower_hull, coord_upper_hull]
  exact ⟨Binary64.lesser_rec (P := (· ≠ .nan)) (ha i).1 (hb i).1,
    Binary64.greater_rec (P := (· ≠ .nan)) (ha i).2 (hb i).2⟩

/-- **A hull reaches around both of its boxes.** -/
lemma hull_around (i : Axis) :
    ((a.hull b).lower.coord i ≤ a.lower.coord i ∧ a.upper.coord i ≤ (a.hull b).upper.coord i) ∧
      (a.hull b).lower.coord i ≤ b.lower.coord i ∧ b.upper.coord i ≤ (a.hull b).upper.coord i := by
  have hlower := Binary64.lesser_le (ha i).1 (hb i).1
  have hupper := Binary64.le_greater (ha i).2 (hb i).2
  rw [coord_lower_hull, coord_upper_hull]
  exact ⟨⟨hlower.1, hupper.1⟩, hlower.2, hupper.2⟩

lemma contains_hull (hp : a.contains p = true ∨ b.contains p = true) :
    (a.hull b).contains p = true := by
  refine contains_iff.2 fun i => ?_
  obtain ⟨hleft, hright⟩ := ha.hull_around hb i
  rcases hp with hp | hp <;> have hpoint := contains_iff.1 hp i
  · exact ⟨Binary64.le_trans_num hleft.1 hpoint.1, Binary64.le_trans_num hpoint.2 hleft.2⟩
  · exact ⟨Binary64.le_trans_num hright.1 hpoint.1, Binary64.le_trans_num hpoint.2 hright.2⟩

lemma isEmpty_hull (ea : a.isEmpty = false) : (a.hull b).isEmpty = false :=
  not_isEmpty_of_contains (ha.contains_hull hb (.inl (contains_iff.2 fun i =>
    ⟨Binary64.le_refl_num (ha i).1, ha.lower_le_upper ea i⟩)))

end NaNFree

end Hull

/-! ## Boxes in the world of blocks -/

/-- The box is not inverted, and its faces lie in the world of blocks. -/
structure InWorld (b : Bounds) : Prop where
  lower : ∀ i, (b.lower.coord i).InWorld
  upper : ∀ i, (b.upper.coord i).InWorld
  lower_le_upper : ∀ i, b.lower.coord i ≤ b.upper.coord i

lemma isHalves_lowestFace : lowestFace.IsHalves (-4294967296) := by
  have h := Binary64.isHalves_ofInt (i := -2147483648) (by norm_num)
  rwa [show 2 * (-2147483648 : ℤ) = -4294967296 by norm_num, ← Binary64.minValue_toInt] at h

lemma isHalves_highestFace : highestFace.IsHalves 4294967296 := by
  have h := Binary64.isHalves_ofInt (i := 2147483647 + 1) (by norm_num)
  rwa [show 2 * (2147483647 + 1 : ℤ) = 4294967296 by norm_num, ← Binary64.maxValue_toInt] at h

lemma lowestFace_le {x : Binary64} (h : x.InWorld) : lowestFace ≤ x := by
  have hface := isHalves_lowestFace
  refine Binary64.le_iff.2 ⟨hface.isFinite.ne_nan, h.isFinite.ne_nan, ?_⟩
  rw [← Binary64.value_le_value_iff, hface.value_eq]
  exact h.lower

lemma le_highestFace {x : Binary64} (h : x.InWorld) : x ≤ highestFace := by
  have hface := isHalves_highestFace
  refine Binary64.le_iff.2 ⟨h.isFinite.ne_nan, hface.isFinite.ne_nan, ?_⟩
  rw [← Binary64.value_le_value_iff, hface.value_eq]
  exact h.upper

lemma isBlockBounded_of_isEmpty {b : Bounds} (h : b.isEmpty = true) :
    b.isBlockBounded = true := by
  simp [isBlockBounded, h]

/-- A box whose blocks can be listed is empty or lies in the world of blocks. -/
lemma isBlockBounded_iff {b : Bounds} (h : b.isEmpty = false) :
    b.isBlockBounded = true ↔ b.InWorld := by
  have hproper : ∀ i, ¬ b.upper.coord i < b.lower.coord i := by
    rw [← Bool.not_eq_true, isEmpty_iff] at h
    exact not_exists.1 h
  rw [isBlockBounded, h, Bool.false_or, Bool.and_eq_true, Vec3.allLe_iff, Vec3.allLe_iff]
  simp only [Vec3.coord_splat]
  constructor
  · rintro ⟨hlow, hhigh⟩
    have hle : ∀ i, b.lower.coord i ≤ b.upper.coord i := fun i =>
      Binary64.le_of_not_lt (Binary64.le_iff.1 (hhigh i)).1 (Binary64.le_iff.1 (hlow i)).2.1
        (hproper i)
    refine ⟨fun i => ?_, fun i => ?_, hle⟩
    · exact Binary64.inWorld_of_le_of_le isHalves_lowestFace isHalves_highestFace (hlow i)
        (Binary64.le_trans_num (hle i) (hhigh i))
    · exact Binary64.inWorld_of_le_of_le isHalves_lowestFace isHalves_highestFace
        (Binary64.le_trans_num (hlow i) (hle i)) (hhigh i)
  · intro hworld
    exact ⟨fun i => lowestFace_le (hworld.lower i), fun i => le_highestFace (hworld.upper i)⟩

namespace InWorld

variable {a b : Bounds}

lemma not_isEmpty (h : b.InWorld) : b.isEmpty = false := by
  rw [← Bool.not_eq_true, isEmpty_iff]
  rintro ⟨i, hi⟩
  exact Binary64.not_le_of_lt hi (h.lower_le_upper i)

lemma naNFree (h : b.InWorld) : b.NaNFree := fun i =>
  ⟨(h.lower i).isFinite.ne_nan, (h.upper i).isFinite.ne_nan⟩

lemma hull (ha : a.InWorld) (hb : b.InWorld) : (a.hull b).InWorld := by
  refine ⟨fun i => ?_, fun i => ?_, ?_⟩
  · rw [coord_lower_hull]
    exact Binary64.lesser_rec (ha.lower i) (hb.lower i)
  · rw [coord_upper_hull]
    exact Binary64.greater_rec (ha.upper i) (hb.upper i)
  · exact (ha.naNFree.hull hb.naNFree).lower_le_upper
      (ha.naNFree.isEmpty_hull hb.naNFree ha.not_isEmpty)

end InWorld

/-! ## Unions -/

/-- The box is empty or free of NaN. -/
def IsClean (b : Bounds) : Prop :=
  b.isEmpty = true ∨ ∀ i, b.lower.coord i ≠ .nan ∧ b.upper.coord i ≠ .nan

section Union

variable {a b : Bounds} {p : Vec3}

lemma IsClean.naNFree (h : b.IsClean) (he : b.isEmpty = false) : b.NaNFree :=
  h.resolve_left (Bool.eq_false_iff.1 he)

lemma isClean_of_isBlockBounded (h : b.isBlockBounded = true) : b.IsClean := by
  by_cases he : b.isEmpty = true
  · exact .inl he
  · exact .inr ((isBlockBounded_iff (Bool.not_eq_true _ ▸ he)).1 h).naNFree

/-- **The union of two boxes whose blocks can be listed is one again.** -/
lemma isBlockBounded_union (ha : a.isBlockBounded = true) (hb : b.isBlockBounded = true) :
    (a.union b).isBlockBounded = true := by
  obtain ⟨-, h⟩ | ⟨-, -, h⟩ | ⟨ea, eb, h⟩ := union_cases a b <;> rw [h]
  · exact hb
  · exact ha
  · have hhull := ((isBlockBounded_iff ea).1 ha).hull ((isBlockBounded_iff eb).1 hb)
    exact (isBlockBounded_iff hhull.not_isEmpty).2 hhull

lemma IsClean.union (ha : a.IsClean) (hb : b.IsClean) : (a.union b).IsClean := by
  obtain ⟨-, h⟩ | ⟨-, -, h⟩ | ⟨ea, eb, h⟩ := union_cases a b <;> rw [h]
  · exact hb
  · exact ha
  · exact .inr ((ha.naNFree ea).hull (hb.naNFree eb))

/-- **A union of clean boxes has the points of both.** -/
lemma contains_union (ha : a.IsClean) (hb : b.IsClean)
    (hp : a.contains p = true ∨ b.contains p = true) : (a.union b).contains p = true := by
  obtain ⟨ea, h⟩ | ⟨-, eb, h⟩ | ⟨ea, eb, h⟩ := union_cases a b <;> rw [h]
  · exact hp.resolve_left (not_contains_of_isEmpty ea)
  · exact hp.resolve_right (not_contains_of_isEmpty eb)
  · exact (ha.naNFree ea).contains_hull (hb.naNFree eb) hp

end Union

end Bounds
end RegionRules
