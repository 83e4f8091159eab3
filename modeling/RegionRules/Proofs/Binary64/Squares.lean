import RegionRules.Proofs.Binary64.Sums

/-!
# Squares and distances

Balls and cylinders test points by sums of squares of differences.  Every step of such a test keeps
the order of magnitudes, an overflow to infinity included, and no step but the differences can lose
a sign.  So a number that lies between `a` and `x` is no further from `a` than `x` is
(`natAbs_place_sub_le`), and neither are its square and any sum of such squares
(`place_mul_self_le`, `place_add_le`).

The numbers next to a number in the order are those at the neighbouring places (`ofPlace`).
-/

set_option autoImplicit false

namespace RegionRules
namespace Binary64

instance : DecidablePred IsFinite
  | .nan => .isFalse id
  | .num _ rank _ => inferInstanceAs (Decidable (rank < infRank))

/-! ## Numbers by place -/

/-- The number at a place; infinity beyond the last place. -/
def ofPlace (p : ℤ) : Binary64 := .num (decide (p < 0)) (min infRank p.natAbs) (Nat.min_le_left ..)

lemma place_ofPlace {p : ℤ} (hp : p.natAbs ≤ infRank) : (ofPlace p).place = p := by
  rw [ofPlace, place, position, Nat.min_eq_right hp]
  simp only [decide_eq_true_eq]
  split_ifs <;> omega

lemma isFinite_ofPlace {p : ℤ} (hp : p.natAbs < infRank) : (ofPlace p).IsFinite :=
  isFinite_iff.2 ⟨num_ne_nan, by rwa [place_ofPlace hp.le]⟩

/-! ## Between -/

/-- In the order of numbers, `x` lies between `a` and `b`. -/
def Between (a x b : Binary64) : Prop := x.place ∈ Set.uIcc a.place b.place

lemma between_left (a b : Binary64) : Between a a b := Set.left_mem_uIcc

lemma Between.value_mem {a x b : Binary64} (h : Between a x b) :
    x.value ∈ Set.uIcc a.value b.value := by
  simpa only [Set.mem_uIcc, value_le_value_iff] using Set.mem_uIcc.1 h

section Differences

variable {a x b : Binary64} (ha : a.IsFinite) (hx : x.IsFinite) (hb : b.IsFinite)

include ha

lemma natAbs_place_sub_comm (hb : b.IsFinite) : (a - b).place.natAbs = (b - a).place.natAbs := by
  rw [place_sub ha hb, place_sub hb ha, natAbs_roundedPlace, natAbs_roundedPlace,
    ← Int.natAbs_neg, neg_sub]

lemma place_sub_self : (a - a).place = 0 := by
  rw [place_sub ha ha, sub_self, roundedPlace, Int.sign_zero, zero_mul]

include hx hb

/-- A number between `a` and `b` is no further from `a` than `b` is. -/
lemma natAbs_place_sub_le (h : Between a x b) : (x - a).place.natAbs ≤ (b - a).place.natAbs := by
  rw [place_sub hx ha, place_sub hb ha, natAbs_roundedPlace, natAbs_roundedPlace]
  refine nearestRank_mono 0 ?_
  have habs := Set.abs_sub_left_of_mem_uIcc h.value_mem
  rwa [Int.abs_eq_natAbs, Int.abs_eq_natAbs, Nat.cast_le] at habs

/-- Differences keep the order of numbers. -/
lemma place_sub_mono (h : x.place ≤ b.place) : (x - a).place ≤ (b - a).place := by
  rw [place_sub hx ha, place_sub hb ha]
  exact roundedPlace_mono (sub_le_sub_right (value_le_value_iff.2 h) _)

end Differences

/-! ## Squares -/

/-- Rank of the square of a rank. -/
def squareRank (r : ℕ) : ℕ :=
  if r = infRank then infRank else nearestRank (magnitude r * magnitude r) (-unitScale)

lemma squareRank_mono {r q : ℕ} (h : r ≤ q) (hq : q ≤ infRank) : squareRank r ≤ squareRank q := by
  unfold squareRank
  split_ifs with hr hq'
  · exact le_rfl
  · omega
  · exact nearestRank_le ..
  · have hmagnitude := magnitude_strictMono.monotone h
    exact nearestRank_mono _ (Nat.mul_le_mul hmagnitude hmagnitude)

lemma infRank_ne_zero : infRank ≠ 0 := by norm_num [infRank]

/-- A square is not negative, and its rank is the square's. -/
lemma mul_self_spec {x : Binary64} (hx : x ≠ .nan) :
    x * x ≠ .nan ∧ (x * x).place = squareRank x.place.natAbs := by
  rcases x with _ | ⟨s, r, hr⟩
  · exact absurd rfl hx
  have hrank : (num s r hr).place.natAbs = r := by
    cases s <;> simp [place, position]
  rw [hrank]
  change mul _ _ ≠ .nan ∧ (mul _ _).place = _
  simp only [mul, or_self, bne_self_eq_false, squareRank]
  by_cases hinf : r = infRank
  · rw [if_pos hinf, if_neg (hinf ▸ infRank_ne_zero), if_pos hinf]
    exact ⟨num_ne_nan, rfl⟩
  · rw [if_neg hinf, if_neg hinf]
    refine ⟨num_ne_nan, ?_⟩
    have hshift := nearestRank_shift (significand r * significand r) (shift r + shift r)
      (shift r + shift r - unitScale)
    have hexact : significand r * significand r * pow2 (shift r + shift r) =
        magnitude r * magnitude r := by
      rw [magnitude, pow2_add]
      ring
    rw [hexact, show ((shift r + shift r - unitScale : ℤ) - ((shift r + shift r : ℕ) : ℤ)) =
      -unitScale by push_cast; ring] at hshift
    rw [hshift]
    rfl

lemma place_mul_self_le {x y : Binary64} (hx : x ≠ .nan) (hy : y ≠ .nan)
    (h : x.place.natAbs ≤ y.place.natAbs) : (x * x).place ≤ (y * y).place := by
  rw [(mul_self_spec hx).2, (mul_self_spec hy).2]
  exact_mod_cast squareRank_mono h (natAbs_place_le y)

lemma place_mul_self_of_zero {x : Binary64} (hx : x ≠ .nan) (h : x.place = 0) :
    (x * x).place = 0 := by
  rw [(mul_self_spec hx).2, h, squareRank, Int.natAbs_zero, if_neg infRank_ne_zero.symm,
    magnitude_zero, nearestRank_eq, if_pos rfl, Nat.cast_zero]

/-! ## Sums of squares -/

/-- The number is neither NaN nor negative. -/
structure IsNonneg (x : Binary64) : Prop where
  ne_nan : x ≠ .nan
  place_nonneg : 0 ≤ x.place

lemma isNonneg_mul_self {x : Binary64} (hx : x ≠ .nan) : (x * x).IsNonneg where
  ne_nan := (mul_self_spec hx).1
  place_nonneg := by
    rw [(mul_self_spec hx).2]
    exact Int.natCast_nonneg _

namespace IsNonneg

variable {a b a' b' : Binary64}

/-- A sum of numbers that are not negative is infinite if one of them is. -/
lemma add_of_not_isFinite (ha : a.IsNonneg) (hb : b.IsNonneg) (h : ¬ (a.IsFinite ∧ b.IsFinite)) :
    a + b = infinity false := by
  rcases a with _ | ⟨s, r, hr⟩
  · exact absurd rfl ha.ne_nan
  rcases b with _ | ⟨t, q, hq⟩
  · exact absurd rfl hb.ne_nan
  have hpositive {s : Bool} {r : ℕ} {hr : r ≤ infRank} (h : (num s r hr).IsNonneg)
      (hinf : r = infRank) : s = false := by
    have hplace := h.place_nonneg
    have hne := infRank_ne_zero
    cases s with
    | false => rfl
    | true =>
      change 0 ≤ -(r : ℤ) at hplace
      omega
  change add _ _ = _
  rw [add]
  by_cases hrinf : r = infRank
  · have hboth : ¬ (q = infRank ∧ s ≠ t) := by
      rintro ⟨hqinf, hst⟩
      exact hst ((hpositive ha hrinf).trans (hpositive hb hqinf).symm)
    rw [if_pos hrinf, if_neg hboth, infinity, num.injEq]
    exact ⟨hpositive ha hrinf, hrinf⟩
  · have hqinf : q = infRank := by
      by_contra hne
      exact h ⟨lt_of_le_of_ne hr hrinf, lt_of_le_of_ne hq hne⟩
    rw [if_neg hrinf, if_pos hqinf, infinity, num.injEq]
    exact ⟨hpositive hb hqinf, hqinf⟩

lemma add (ha : a.IsNonneg) (hb : b.IsNonneg) : (a + b).IsNonneg := by
  by_cases h : a.IsFinite ∧ b.IsFinite
  · refine ⟨add_ne_nan h.1 h.2, ?_⟩
    have hvalue {x : Binary64} (hx : x.IsNonneg) : 0 ≤ x.value := by
      rw [value, valueAt_nonneg hx.place_nonneg]
      exact Int.natCast_nonneg _
    rw [place_add h.1 h.2, roundedPlace_of_nonneg (add_nonneg (hvalue ha) (hvalue hb))]
    exact Int.natCast_nonneg _
  · rw [add_of_not_isFinite ha hb h]
    exact ⟨num_ne_nan, Int.natCast_nonneg _⟩

/-- Sums of numbers that are not negative keep the order in both terms. -/
lemma place_add_le (ha : a.IsNonneg) (hb : b.IsNonneg) (ha' : a'.IsNonneg) (hb' : b'.IsNonneg)
    (hle : a.place ≤ a'.place) (hle' : b.place ≤ b'.place) :
    (a + b).place ≤ (a' + b').place := by
  by_cases h : a'.IsFinite ∧ b'.IsFinite
  · have hfinite {x y : Binary64} (hx : x.IsNonneg) (hy : y.IsFinite) (hxy : x.place ≤ y.place) :
        x.IsFinite := by
      have hnonneg := hx.place_nonneg
      have hrank := (isFinite_iff.1 hy).2
      exact isFinite_iff.2 ⟨hx.ne_nan, by omega⟩
    rw [place_add (hfinite ha h.1 hle) (hfinite hb h.2 hle'), place_add h.1 h.2]
    exact roundedPlace_mono
      (add_le_add (value_le_value_iff.2 hle) (value_le_value_iff.2 hle'))
  · rw [add_of_not_isFinite ha' hb' h]
    have hrank := natAbs_place_le (a + b)
    change (a + b).place ≤ (infRank : ℤ)
    omega

end IsNonneg

end Binary64
end RegionRules
