import RegionRules.Proofs.Binary64.Squares
import RegionRules.Proofs.Region.Trees

/-!
# Anchors of shapes

A shape has an *anchor*: the centre of a ball, the foot of a cylinder's axis, a corner of a box.
With a point, a shape given by finite numbers has all points between the anchor and that point
(`contains_of_between`), for the tests of ball and cylinder keep the order of distances through all
their roundings.  So a shape with a point has its anchor.  A ball always has it, even one of
negative radius, and so has a cylinder unless its height is negative (`Sphere.contains_center`,
`Cylinder.contains_base_iff`).
-/

set_option autoImplicit false

namespace RegionRules

/-! ## Points -/

namespace Vec3

/-- Every coordinate is finite. -/
def IsFinite (v : Vec3) : Prop := ∀ i, (v.coord i).IsFinite

instance : DecidablePred IsFinite := fun _ => decidable_of_iff' _ Axis.forall_iff

/-- The vector with another number on an axis. -/
def put (v : Vec3) (i : Axis) (a : Binary64) : Vec3 :=
  match i with
  | .x => { v with x := a }
  | .y => { v with y := a }
  | .z => { v with z := a }

lemma coord_put (v : Vec3) (i j : Axis) (a : Binary64) :
    (v.put i a).coord j = if j = i then a else v.coord j := by
  cases i <;> cases j <;> rfl

lemma coord_sub (a b : Vec3) (i : Axis) : (a - b).coord i = a.coord i - b.coord i := by
  cases i <;> rfl

/-- On every axis, `q` lies between `a` and `p`. -/
def Between (a q p : Vec3) : Prop := ∀ i, (a.coord i).Between (q.coord i) (p.coord i)

lemma between_left (a p : Vec3) : Between a a p := fun _ => Binary64.between_left _ _

lemma between_put {a p : Vec3} {i : Axis} {c : Binary64}
    (h : (a.coord i).Between c (p.coord i)) : Between a (a.put i c) p := by
  intro j
  rw [coord_put]
  split_ifs with hj
  · rwa [hj]
  · exact Binary64.between_left _ _

lemma isFinite_put {v : Vec3} (hv : v.IsFinite) {c : Binary64} (hc : c.IsFinite) (i : Axis) :
    (v.put i c).IsFinite := by
  intro j
  rw [coord_put]
  split_ifs
  exacts [hc, hv j]

/-- Squared lengths keep the order of vectors that are ordered on every axis. -/
lemma lengthSquared_le {a b : Vec3} (ha : ∀ i, a.coord i ≠ .nan) (hb : ∀ i, b.coord i ≠ .nan)
    (h : ∀ i, (a.coord i).place.natAbs ≤ (b.coord i).place.natAbs) :
    a.lengthSquared ≠ .nan ∧ a.lengthSquared.place ≤ b.lengthSquared.place := by
  have hnonneg_a (i : Axis) := Binary64.isNonneg_mul_self (ha i)
  have hnonneg_b (i : Axis) := Binary64.isNonneg_mul_self (hb i)
  have hle (i : Axis) := Binary64.place_mul_self_le (ha i) (hb i) (h i)
  have hflat_a := (hnonneg_a .x).add (hnonneg_a .y)
  have hflat_b := (hnonneg_b .x).add (hnonneg_b .y)
  have hflat := (hnonneg_a .x).place_add_le (hnonneg_a .y) (hnonneg_b .x) (hnonneg_b .y) (hle .x)
    (hle .y)
  exact ⟨(hflat_a.add (hnonneg_a .z)).ne_nan,
    hflat_a.place_add_le (hnonneg_a .z) hflat_b (hnonneg_b .z) hflat (hle .z)⟩

end Vec3

namespace Binary64

lemma le_of_place_le {a b c : Binary64} (h : b ≤ c) (ha : a ≠ .nan) (hab : a.place ≤ b.place) :
    a ≤ c := by
  rw [le_iff] at *
  exact ⟨ha, h.2.1, hab.trans h.2.2⟩

end Binary64

/-! ## Shapes with an anchor -/

namespace Cuboid

variable {c : Cuboid} {p q : Vec3}

lemma contains_of_between (hq : q.IsFinite) (hbetween : Vec3.Between c.bounds.lower q p)
    (h : c.contains p = true) : c.contains q = true := by
  refine Bounds.contains_iff.2 fun i => ?_
  obtain ⟨hlower, hupper⟩ := Bounds.contains_iff.1 h i
  rw [Binary64.le_iff] at hlower hupper
  have hmem := Set.mem_uIcc.1 (hbetween i)
  exact ⟨Binary64.le_iff.2 ⟨hlower.1, (hq i).ne_nan, by omega⟩,
    Binary64.le_iff.2 ⟨(hq i).ne_nan, hupper.2.1, by omega⟩⟩

lemma contains_lower_iff (hlower : c.bounds.lower.IsFinite) (hupper : c.bounds.upper.IsFinite) :
    c.contains c.bounds.lower = true ↔ ¬ c.bounds.isEmpty = true := by
  rw [contains, Bounds.contains_iff, Bounds.isEmpty_iff, not_exists]
  refine forall_congr' fun i => ⟨fun h hlt => Binary64.not_le_of_lt hlt h.2, fun h => ⟨?_, ?_⟩⟩
  · exact Binary64.le_refl_num (hlower i).ne_nan
  · exact Binary64.le_of_not_lt (hupper i).ne_nan (hlower i).ne_nan h

end Cuboid

namespace Sphere

variable {b : Sphere} {p q : Vec3}

lemma contains_of_between (hcenter : b.center.IsFinite) (hp : p.IsFinite) (hq : q.IsFinite)
    (hbetween : Vec3.Between b.center q p) (h : b.contains p = true) : b.contains q = true := by
  have hnan {v : Vec3} (hv : v.IsFinite) (i : Axis) : (b.center - v).coord i ≠ .nan := by
    rw [Vec3.coord_sub]
    exact Binary64.sub_ne_nan (hcenter i) (hv i)
  have hdistance := Vec3.lengthSquared_le (hnan hq) (hnan hp) fun i => by
    rw [Vec3.coord_sub, Vec3.coord_sub, Binary64.natAbs_place_sub_comm (hcenter i) (hq i),
      Binary64.natAbs_place_sub_comm (hcenter i) (hp i)]
    exact Binary64.natAbs_place_sub_le (hcenter i) (hq i) (hp i) (hbetween i)
  exact decide_eq_true (Binary64.le_of_place_le (of_decide_eq_true h) hdistance.1 hdistance.2)

/-- A ball has its centre, whatever the sign of the radius. -/
lemma contains_center (hcenter : b.center.IsFinite) (hradius : b.radius.IsFinite) :
    b.contains b.center = true := by
  have hnan (i : Axis) : (b.center - b.center).coord i ≠ .nan := by
    rw [Vec3.coord_sub]
    exact Binary64.sub_ne_nan (hcenter i) (hcenter i)
  have hzero (i : Axis) : ((b.center - b.center).coord i).place = 0 := by
    rw [Vec3.coord_sub, Binary64.place_sub_self (hcenter i)]
  have hsquare := Binary64.isNonneg_mul_self hradius.ne_nan
  have hnan_zero (i : Axis) : (Vec3.splat (.zero false)).coord i ≠ .nan := by
    rw [Vec3.coord_splat]
    exact Binary64.num_ne_nan
  have hdistance := Vec3.lengthSquared_le hnan hnan_zero fun i => by
    rw [hzero]
    exact Nat.zero_le _
  have hplace : (Vec3.splat (.zero false)).lengthSquared.place = 0 := by decide +kernel
  rw [contains, decide_eq_true_eq, Vec3.distanceSquared, Binary64.le_iff]
  exact ⟨hdistance.1, hsquare.ne_nan, (hdistance.2.trans hplace.le).trans hsquare.place_nonneg⟩

lemma isEmpty_bounds_iff : b.bounds.isEmpty = true ↔ b.radius < .zero false := by
  unfold bounds
  split_ifs with hradius
  · exact iff_of_true Bounds.isEmpty_empty hradius
  · exact iff_of_false (Bounds.not_isEmpty_spanning _ _) hradius

end Sphere

namespace Cylinder

variable {c : Cylinder} {p q : Vec3}

lemma contains_iff : c.contains p = true ↔
    ¬ p.y - c.base.y < .zero false ∧ ¬ c.height < p.y - c.base.y ∧
      (p.x - c.base.x) * (p.x - c.base.x) + (p.z - c.base.z) * (p.z - c.base.z) ≤
        c.radius * c.radius := by
  unfold contains
  dsimp only
  split_ifs with h
  · exact iff_of_false not_false fun ⟨hlow, hhigh, _⟩ => h.elim hlow hhigh
  · rw [decide_eq_true_eq, ← and_assoc, ← not_or, and_iff_right h]

/-- A cylinder has its base point, whatever the sign of the radius, unless the height is
negative. -/
lemma contains_base_iff (hbase : c.base.IsFinite) (hradius : c.radius.IsFinite) :
    c.contains c.base = true ↔ ¬ c.height < .zero false := by
  have hnan (i : Axis) : c.base.coord i - c.base.coord i ≠ .nan :=
    Binary64.sub_ne_nan (hbase i) (hbase i)
  have hzero (i : Axis) : (c.base.coord i - c.base.coord i).place = 0 :=
    Binary64.place_sub_self (hbase i)
  have hrise : (c.base.y - c.base.y).place = 0 := hzero .y
  have hlevel : ¬ c.base.y - c.base.y < .zero false := fun h =>
    (Binary64.lt_iff.1 h).2.2.ne hrise
  have habove : c.height < c.base.y - c.base.y ↔ c.height < .zero false := by
    rw [Binary64.lt_iff, Binary64.lt_iff, hrise]
    exact and_congr_right fun _ => and_congr_left fun _ => iff_of_true (hnan .y) Binary64.num_ne_nan
  have hnonneg (i : Axis) := Binary64.isNonneg_mul_self (hnan i)
  have hnonneg_zero : (Binary64.zero false).IsNonneg := ⟨Binary64.num_ne_nan, le_rfl⟩
  have hflat := (hnonneg .x).place_add_le (hnonneg .z) hnonneg_zero hnonneg_zero
    (Binary64.place_mul_self_of_zero (hnan .x) (hzero .x)).le
    (Binary64.place_mul_self_of_zero (hnan .z) (hzero .z)).le
  have hsquare := Binary64.isNonneg_mul_self hradius.ne_nan
  have hzero_add : (Binary64.zero false + .zero false).place = 0 := by decide +kernel
  have hradius_le : (c.base.x - c.base.x) * (c.base.x - c.base.x) +
      (c.base.z - c.base.z) * (c.base.z - c.base.z) ≤ c.radius * c.radius :=
    Binary64.le_iff.2 ⟨((hnonneg .x).add (hnonneg .z)).ne_nan, hsquare.ne_nan,
      (hflat.trans hzero_add.le).trans hsquare.place_nonneg⟩
  rw [contains_iff, habove]
  exact ⟨fun h => h.2.1, fun h => ⟨hlevel, h, hradius_le⟩⟩

lemma isEmpty_bounds_iff :
    c.bounds.isEmpty = true ↔ c.radius < .zero false ∨ c.height < .zero false := by
  unfold bounds
  split_ifs with hnegative
  · exact iff_of_true Bounds.isEmpty_empty hnegative
  · exact iff_of_false (Bounds.not_isEmpty_spanning _ _) hnegative

lemma contains_of_between (hbase : c.base.IsFinite) (hp : p.IsFinite) (hq : q.IsFinite)
    (hbetween : Vec3.Between c.base q p) (h : c.contains p = true) : c.contains q = true := by
  rw [contains_iff] at h ⊢
  obtain ⟨hlow, hhigh, hflat⟩ := h
  have hle (i : Axis) : (q.coord i - c.base.coord i).place.natAbs ≤
      (p.coord i - c.base.coord i).place.natAbs :=
    Binary64.natAbs_place_sub_le (hbase i) (hq i) (hp i) (hbetween i)
  have hnan {v : Vec3} (hv : v.IsFinite) (i : Axis) : v.coord i - c.base.coord i ≠ .nan :=
    Binary64.sub_ne_nan (hv i) (hbase i)
  have hrise : 0 ≤ (p.y - c.base.y).place := by
    by_contra hneg
    exact hlow (Binary64.lt_iff.2 ⟨hnan hp .y, Binary64.num_ne_nan, not_le.1 hneg⟩)
  -- The rise of `q` is between zero and the rise of `p`, whichever side of the base it is on.
  have hrise_q : 0 ≤ (q.y - c.base.y).place ∧
      (q.y - c.base.y).place ≤ (p.y - c.base.y).place := by
    have hle_y : (q.y - c.base.y).place.natAbs ≤ (p.y - c.base.y).place.natAbs := hle .y
    refine ⟨?_, by omega⟩
    rcases Set.mem_uIcc.1 (hbetween .y) with hup | hdown
    · rw [← Binary64.place_sub_self (hbase .y)]
      exact Binary64.place_sub_mono (hbase .y) (hbase .y) (hq .y) hup.1
    · exact hrise.trans (Binary64.place_sub_mono (hbase .y) (hp .y) (hq .y) hdown.1)
  refine ⟨fun h => ?_, fun h => hhigh ?_, ?_⟩
  · exact absurd (Binary64.lt_iff.1 h).2.2 (not_lt.2 hrise_q.1)
  · have h := Binary64.lt_iff.1 h
    exact Binary64.lt_iff.2 ⟨h.1, hnan hp .y, h.2.2.trans_le hrise_q.2⟩
  · have hnonneg {v : Vec3} (hv : v.IsFinite) (i : Axis) :=
      Binary64.isNonneg_mul_self (hnan hv i)
    have hsquare (i : Axis) := Binary64.place_mul_self_le (hnan hq i) (hnan hp i) (hle i)
    refine Binary64.le_of_place_le hflat ((hnonneg hq .x).add (hnonneg hq .z)).ne_nan ?_
    exact (hnonneg hq .x).place_add_le (hnonneg hq .z) (hnonneg hp .x) (hnonneg hp .z)
      (hsquare .x) (hsquare .z)

end Cylinder

namespace Region

variable {σ : Type} {s : σ} {r : Region σ}

/-- A box, ball or cylinder given by finite numbers. -/
inductive IsFiniteShape : Region σ → Prop
  | cuboid (c : Cuboid) (hlower : c.bounds.lower.IsFinite) (hupper : c.bounds.upper.IsFinite) :
      IsFiniteShape (.cuboid c)
  | sphere (b : Sphere) (hcenter : b.center.IsFinite) (hradius : b.radius.IsFinite) :
      IsFiniteShape (.sphere b)
  | cylinder (c : Cylinder) (hbase : c.base.IsFinite) (hradius : c.radius.IsFinite)
      (hheight : c.height.IsFinite) : IsFiniteShape (.cylinder c)

/-- A point that a shape has if it has any. -/
def anchor : Region σ → Vec3
  | .cuboid c => c.bounds.lower
  | .sphere b => b.center
  | .cylinder c => c.base
  | _ => .splat (.zero false)

lemma IsFiniteShape.isFinite_anchor (hr : r.IsFiniteShape) : r.anchor.IsFinite := by
  cases hr <;> assumption

/-- **With a point a shape has all points between the anchor and it.** -/
theorem contains_of_between (hr : r.IsFiniteShape) {p q : Vec3} (hp : p.IsFinite)
    (hq : q.IsFinite) (hbetween : Vec3.Between r.anchor q p) (h : r.contains s p = true) :
    r.contains s q = true := by
  cases hr with
  | cuboid c => exact c.contains_of_between hq hbetween h
  | sphere b hcenter => exact b.contains_of_between hcenter hp hq hbetween h
  | cylinder c hbase => exact c.contains_of_between hbase hp hq hbetween h

/-! ## Boxes around shapes -/

lemma isClean_bounds_of_isFiniteShape (hr : r.IsFiniteShape) : (r.bounds s).IsClean := by
  have hspanning {a b : Vec3} (ha : ∀ i, a.coord i ≠ .nan) (hb : ∀ i, b.coord i ≠ .nan) :
      (Bounds.spanning a b).IsClean := by
    refine .inr fun i => ⟨?_, ?_⟩
    · rw [Bounds.spanning, Vec3.coord_lesser]
      exact Binary64.lesser_rec (P := (· ≠ .nan)) (ha i) (hb i)
    · rw [Bounds.spanning, Vec3.coord_greater]
      exact Binary64.greater_rec (P := (· ≠ .nan)) (ha i) (hb i)
  cases hr with
  | cuboid c hlower hupper => exact .inr fun i => ⟨(hlower i).ne_nan, (hupper i).ne_nan⟩
  | sphere b hcenter hradius =>
    rw [bounds, Sphere.bounds]
    split_ifs
    · exact .inl Bounds.isEmpty_empty
    · refine hspanning (fun i => ?_) fun i => ?_
      · rw [Vec3.coord_sub, Vec3.coord_splat]
        exact Binary64.sub_ne_nan (hcenter i) hradius
      · rw [Vec3.coord_add, Vec3.coord_splat]
        exact Binary64.add_ne_nan (hcenter i) hradius
  | cylinder c hbase hradius hheight =>
    rw [bounds, Cylinder.bounds]
    split_ifs
    · exact .inl Bounds.isEmpty_empty
    · refine hspanning (Axis.forall_iff.2 ⟨?_, ?_, ?_⟩) (Axis.forall_iff.2 ⟨?_, ?_, ?_⟩)
      exacts [Binary64.sub_ne_nan (hbase .x) hradius, (hbase .y).ne_nan,
        Binary64.sub_ne_nan (hbase .z) hradius, Binary64.add_ne_nan (hbase .x) hradius,
        Binary64.add_ne_nan (hbase .y) hheight, Binary64.add_ne_nan (hbase .z) hradius]

end Region
end RegionRules
