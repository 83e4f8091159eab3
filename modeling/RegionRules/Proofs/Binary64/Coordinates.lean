import RegionRules.Proofs.Binary64.Sums

/-!
# Block coordinates and block centres

The block at coordinate `c` has its centre at `c + 1/2`, which is a binary64 number for every
32-bit coordinate.  A face of a box selects coordinates by a rounded subtraction, a rounding to
whole numbers and a clamp.  Each of the three is monotone, and at a block centre they give the
block, so no block whose centre is on the inner side of a face is lost
(`le_floorCoordinate_of_centre_le`, `ceilCoordinate_le_of_le_centre`).

The converse fails: a face can select a block whose centre it cuts off.  It holds for faces on the
grid of half blocks (`le_floorCoordinate_iff`, `ceilCoordinate_le_iff`), the only faces that boxes
of whole blocks have.
-/

set_option autoImplicit false

namespace RegionRules
namespace Binary64

/-! ## Half a unit -/

/-- Number of ticks in one half. -/
def halfUnit : ℤ := (pow2 1073 : ℕ)

lemma halfUnit_pos : 0 < halfUnit := by
  unfold halfUnit
  exact_mod_cast pow2_pos 1073

lemma pow2_unitScale : (pow2 unitScale : ℤ) = 2 * halfUnit := by
  rw [show unitScale = 1 + 1073 from rfl, pow2_add, pow2_eq_pow 1, halfUnit]
  push_cast
  ring

lemma unit_eq : (unit : ℤ) = 2 * halfUnit := by
  rw [← pow2_unitScale, pow2_eq unitScale]
  unfold unit
  rfl

lemma magnitude_binade {r e : ℕ} (h : r = e * binade + binade) : magnitude r = pow2 (52 + e) := by
  rw [h, magnitude_compose (by omega) (.inr le_rfl), pow2_add, pow2_eq_pow 52, binade_eq]

/-! ## The half-block grid

All numbers that block coordinates meet lie on the grid of halves, where arithmetic is exact. -/

/-- The number is `k` halves. -/
structure IsHalves (x : Binary64) (k : ℤ) : Prop where
  isFinite : x.IsFinite
  value_eq : x.value = k * halfUnit

lemma isHalves_of_place {x : Binary64} {k : ℤ} (hx : x ≠ .nan) (hk : k.natAbs < 2 ^ 53)
    (h : x.place = roundedPlace (k * halfUnit)) : IsHalves x k where
  isFinite := isFinite_iff.2 ⟨hx, h ▸ natAbs_roundedPlace_lt hk (by norm_num)⟩
  value_eq := by rw [value, h, halfUnit, valueAt_roundedPlace hk (by norm_num)]

lemma isHalves_half : IsHalves half 1 where
  isFinite := by
    change _ < infRank
    norm_num [infRank]
  value_eq := by
    have h : 0x3fe0000000000000 = 1021 * binade + binade := by norm_num [binade]
    rw [half, value_num, ticks_false, magnitude_binade h, halfUnit, one_mul]

lemma isHalves_one : IsHalves one 2 where
  isFinite := by
    change _ < infRank
    norm_num [infRank]
  value_eq := by
    have h : 0x3ff0000000000000 = 1022 * binade + binade := by norm_num [binade]
    rw [one, value_num, ticks_false, magnitude_binade h, ← pow2_unitScale]
    rfl

lemma isHalves_ofInt {i : ℤ} (hi : (2 * i).natAbs < 2 ^ 53) : IsHalves (ofInt i) (2 * i) := by
  refine isHalves_of_place (by simp [ofInt, nearest]) hi ?_
  rw [ofInt, place_nearest, pow2_unitScale]
  congr 1
  split_ifs with h <;> rw [decide_eq_true_iff] at h
  · rw [← Int.abs_eq_natAbs, abs_of_neg h]
    ring
  · rw [← Int.abs_eq_natAbs, abs_of_nonneg (not_lt.1 h)]
    ring

namespace IsHalves

variable {x y : Binary64} {j k : ℤ}

lemma add (hx : IsHalves x j) (hy : IsHalves y k) (h : (j + k).natAbs < 2 ^ 53) :
    IsHalves (x + y) (j + k) := by
  refine isHalves_of_place (add_ne_nan hx.isFinite hy.isFinite) h ?_
  rw [place_add hx.isFinite hy.isFinite, hx.value_eq, hy.value_eq, add_mul]

lemma sub (hx : IsHalves x j) (hy : IsHalves y k) (h : (j - k).natAbs < 2 ^ 53) :
    IsHalves (x - y) (j - k) := by
  refine isHalves_of_place (sub_ne_nan hx.isFinite hy.isFinite) h ?_
  rw [place_sub hx.isFinite hy.isFinite, hx.value_eq, hy.value_eq, sub_mul]

lemma le_iff_le (hx : IsHalves x j) (hy : IsHalves y k) : x ≤ y ↔ j ≤ k := by
  rw [le_iff, ← value_le_value_iff, hx.value_eq, hy.value_eq,
    mul_le_mul_iff_left₀ halfUnit_pos]
  exact and_iff_right hx.isFinite.ne_nan |>.trans (and_iff_right hy.isFinite.ne_nan)

end IsHalves

/-! ## Clamped coordinates -/

lemma minValue_toInt : Int32.minValue.toInt = -2147483648 := by decide

lemma maxValue_toInt : Int32.maxValue.toInt = 2147483647 := by decide

lemma toInt_ofIntClamp (i : ℤ) :
    (Int32.ofIntClamp i).toInt = max (-2147483648) (min i 2147483647) := by
  unfold Int32.ofIntClamp Int32.ofIntLE
  rw [minValue_toInt, maxValue_toInt]
  split_ifs with hl hr
  · rw [Int32.toInt_ofInt_of_le (by omega) (by omega)]
    omega
  · rw [maxValue_toInt]
    omega
  · rw [minValue_toInt]
    omega

/-- A coordinate at most a whole number is at most its clamp. -/
lemma le_ofIntClamp_iff {c : Int32} {i : ℤ} (hi : -2147483648 ≤ i) :
    c ≤ Int32.ofIntClamp i ↔ c.toInt ≤ i := by
  have := c.toInt_lt
  rw [Int32.le_iff_toInt_le, toInt_ofIntClamp]
  omega

/-- A coordinate at least a whole number is at least its clamp. -/
lemma ofIntClamp_le_iff {c : Int32} {i : ℤ} (hi : i ≤ 2147483647) :
    Int32.ofIntClamp i ≤ c ↔ i ≤ c.toInt := by
  have := c.le_toInt
  rw [Int32.le_iff_toInt_le, toInt_ofIntClamp]
  omega

lemma floorCoordinate_eq {x : Binary64} (hx : x.IsFinite) :
    x.floorCoordinate = Int32.ofIntClamp (x.value / (2 * halfUnit)) := by
  rcases x with _ | ⟨s, r, hr⟩
  · exact hx.elim
  · rw [floorCoordinate, if_neg (ne_of_lt hx), value_num, unit_eq]

lemma ceilCoordinate_eq {x : Binary64} (hx : x.IsFinite) :
    x.ceilCoordinate = Int32.ofIntClamp (-(-x.value / (2 * halfUnit))) := by
  rcases x with _ | ⟨s, r, hr⟩
  · exact hx.elim
  · rw [ceilCoordinate, if_neg (ne_of_lt hx), value_num, unit_eq]

/-! ## Faces and centres

A face within the world of blocks is moved by half a block and then rounded to a coordinate.  Both
steps keep the order, so they may be followed on the grid. -/

/-- The number lies between the outer faces of the world of blocks. -/
structure InWorld (x : Binary64) : Prop where
  isFinite : x.IsFinite
  lower : -4294967296 * halfUnit ≤ x.value
  upper : x.value ≤ 4294967296 * halfUnit

lemma inWorld_of_le_of_le {l x u : Binary64} (hl : IsHalves l (-4294967296))
    (hu : IsHalves u 4294967296) (hlx : l ≤ x) (hxu : x ≤ u) : InWorld x := by
  have hplace_l := (le_iff.1 hlx).2.2
  have hplace_u := (le_iff.1 hxu).2.2
  have hfin_l := (isFinite_iff.1 hl.isFinite).2
  have hfin_u := (isFinite_iff.1 hu.isFinite).2
  refine ⟨isFinite_iff.2 ⟨(le_iff.1 hlx).2.1, by omega⟩, ?_, ?_⟩
  · rw [← hl.value_eq]
    exact value_le_value_iff.2 hplace_l
  · rw [← hu.value_eq]
    exact value_le_value_iff.2 hplace_u

section Shifted

variable {x : Binary64} {k : ℤ}

lemma le_value_sub_half (hx : x.IsFinite) (hk : (k - 1).natAbs < 2 ^ 53)
    (h : k * halfUnit ≤ x.value) : (k - 1) * halfUnit ≤ (x - half).value := by
  have hround : roundedPlace ((k - 1) * halfUnit) ≤ (x - half).place := by
    rw [place_sub hx isHalves_half.isFinite, isHalves_half.value_eq]
    exact roundedPlace_mono (by linarith)
  calc
    (k - 1) * halfUnit = valueAt (roundedPlace ((k - 1) * halfUnit)) :=
      (valueAt_roundedPlace hk (by norm_num)).symm
    _ ≤ (x - half).value := valueAt_strictMono.monotone hround

lemma value_sub_half_le (hx : x.IsFinite) (hk : (k - 1).natAbs < 2 ^ 53)
    (h : x.value ≤ k * halfUnit) : (x - half).value ≤ (k - 1) * halfUnit := by
  have hround : (x - half).place ≤ roundedPlace ((k - 1) * halfUnit) := by
    rw [place_sub hx isHalves_half.isFinite, isHalves_half.value_eq]
    exact roundedPlace_mono (by linarith)
  calc
    (x - half).value ≤ valueAt (roundedPlace ((k - 1) * halfUnit)) :=
      valueAt_strictMono.monotone hround
    _ = (k - 1) * halfUnit := valueAt_roundedPlace hk (by norm_num)

lemma InWorld.isFinite_sub_half (hx : InWorld x) : (x - half).IsFinite := by
  have hplace : (x - half).place = roundedPlace (x.value - 1 * halfUnit) := by
    rw [place_sub hx.isFinite isHalves_half.isFinite, isHalves_half.value_eq]
  have hlow := roundedPlace_mono (show (-4294967297) * halfUnit ≤ x.value - 1 * halfUnit by
    linarith [hx.lower])
  have hhigh := roundedPlace_mono (show x.value - 1 * halfUnit ≤ 4294967295 * halfUnit by
    linarith [hx.upper])
  have hfin_low : (roundedPlace (-4294967297 * halfUnit)).natAbs < infRank :=
    natAbs_roundedPlace_lt (by norm_num) (by norm_num)
  have hfin_high : (roundedPlace (4294967295 * halfUnit)).natAbs < infRank :=
    natAbs_roundedPlace_lt (by norm_num) (by norm_num)
  refine isFinite_iff.2 ⟨sub_ne_nan hx.isFinite isHalves_half.isFinite, ?_⟩
  rw [hplace]
  omega

/-- Half a block further down, numbers are in the same order. -/
lemma value_sub_half_mono {y : Binary64} (hx : x.IsFinite) (hy : y.IsFinite) (h : x ≤ y) :
    (x - half).value ≤ (y - half).value := by
  have hvalue := value_le_value_iff.2 (le_iff.1 h).2.2
  rw [value_le_value_iff, place_sub hx isHalves_half.isFinite, place_sub hy isHalves_half.isFinite]
  exact roundedPlace_mono (by linarith)

/-- A higher upper face has a last block at least as high. -/
lemma floorCoordinate_mono {y : Binary64} (hx : InWorld x) (hy : InWorld y) (h : x ≤ y) :
    (x - half).floorCoordinate ≤ (y - half).floorCoordinate := by
  have hquotient := Int.ediv_le_ediv (show 0 < 2 * halfUnit by linarith [halfUnit_pos])
    (value_sub_half_mono hx.isFinite hy.isFinite h)
  rw [floorCoordinate_eq hx.isFinite_sub_half, floorCoordinate_eq hy.isFinite_sub_half,
    Int32.le_iff_toInt_le, toInt_ofIntClamp, toInt_ofIntClamp]
  omega

/-- A higher lower face has a first block at least as high. -/
lemma ceilCoordinate_mono {y : Binary64} (hx : InWorld x) (hy : InWorld y) (h : x ≤ y) :
    (x - half).ceilCoordinate ≤ (y - half).ceilCoordinate := by
  have hquotient := Int.ediv_le_ediv (show 0 < 2 * halfUnit by linarith [halfUnit_pos])
    (neg_le_neg (value_sub_half_mono hx.isFinite hy.isFinite h))
  rw [ceilCoordinate_eq hx.isFinite_sub_half, ceilCoordinate_eq hy.isFinite_sub_half,
    Int32.le_iff_toInt_le, toInt_ofIntClamp, toInt_ofIntClamp]
  omega

variable {p : Binary64} {c : Int32}

/-- **No block below an upper face is lost.** -/
lemma le_floorCoordinate_of_centre_le (hx : InWorld x) (hp : IsHalves p (2 * c.toInt + 1))
    (h : p ≤ x) : c ≤ (x - half).floorCoordinate := by
  have hc_low := c.le_toInt
  have hc_high := c.toInt_lt
  have hvalue : (2 * c.toInt + 1) * halfUnit ≤ x.value := by
    rw [← hp.value_eq]
    exact value_le_value_iff.2 (le_iff.1 h).2.2
  have hshifted := le_value_sub_half hx.isFinite (by omega) hvalue
  have hquotient : c.toInt ≤ (x - half).value / (2 * halfUnit) := by
    rw [Int.le_ediv_iff_mul_le (by linarith [halfUnit_pos])]
    linarith
  rw [floorCoordinate_eq hx.isFinite_sub_half, le_ofIntClamp_iff (by omega)]
  exact hquotient

/-- **No block above a lower face is lost.** -/
lemma ceilCoordinate_le_of_le_centre (hx : InWorld x) (hp : IsHalves p (2 * c.toInt + 1))
    (h : x ≤ p) : (x - half).ceilCoordinate ≤ c := by
  have hc_low := c.le_toInt
  have hc_high := c.toInt_lt
  have hvalue : x.value ≤ (2 * c.toInt + 1) * halfUnit := by
    rw [← hp.value_eq]
    exact value_le_value_iff.2 (le_iff.1 h).2.2
  have hshifted := value_sub_half_le hx.isFinite (by omega) hvalue
  have hquotient : -c.toInt ≤ -(x - half).value / (2 * halfUnit) := by
    rw [Int.le_ediv_iff_mul_le (by linarith [halfUnit_pos])]
    linarith
  rw [ceilCoordinate_eq hx.isFinite_sub_half, ofIntClamp_le_iff (by omega)]
  omega

end Shifted

/-! ## Faces on the grid

A face on the grid selects exactly the blocks whose centres are on its inner side, except that the
outermost faces of the world of blocks, taken from the outside, still select the block behind
them. -/

section Grid

variable {x : Binary64} {k : ℤ} {c : Int32}

lemma ceilCoordinate_le_iff (hx : IsHalves x k) (hlow : -4294967296 ≤ k)
    (hhigh : k < 4294967296) : (x - half).ceilCoordinate ≤ c ↔ k ≤ 2 * c.toInt + 1 := by
  have hshifted := hx.sub isHalves_half (by omega)
  have hquotient : -((k - 1) * halfUnit) / (2 * halfUnit) = (1 - k) / 2 := by
    rw [show -((k - 1) * halfUnit) = halfUnit * (1 - k) by ring,
      show 2 * halfUnit = halfUnit * 2 by ring, Int.mul_ediv_mul_of_pos _ _ halfUnit_pos]
  rw [ceilCoordinate_eq hshifted.isFinite, hshifted.value_eq, hquotient,
    ofIntClamp_le_iff (by omega)]
  omega

lemma le_floorCoordinate_iff (hx : IsHalves x k) (hlow : -4294967296 < k)
    (hhigh : k ≤ 4294967296) : c ≤ (x - half).floorCoordinate ↔ 2 * c.toInt + 1 ≤ k := by
  have hshifted := hx.sub isHalves_half (by omega)
  have hquotient : (k - 1) * halfUnit / (2 * halfUnit) = (k - 1) / 2 := by
    rw [show (k - 1) * halfUnit = halfUnit * (k - 1) by ring,
      show 2 * halfUnit = halfUnit * 2 by ring, Int.mul_ediv_mul_of_pos _ _ halfUnit_pos]
  rw [floorCoordinate_eq hshifted.isFinite, hshifted.value_eq, hquotient,
    le_ofIntClamp_iff (by omega)]
  omega

end Grid

end Binary64
end RegionRules
