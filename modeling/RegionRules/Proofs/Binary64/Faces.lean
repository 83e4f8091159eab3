import RegionRules.Proofs.Binary64.Coordinates
import RegionRules.Proofs.Binary64.Squares

/-!
# Faces that select too much

A face of a box selects a block by a rounded subtraction, and the rounding may carry it onto the
block's lower corner when the exact difference falls short of it.  This module finds every face of
the world of blocks that selects a block it cuts off:

* an upper face below the centre of the lowest block, which the clamp moves onto that block;
* an upper face right below the centre of block `-2 ^ e` (`LooseUpper`);
* a lower face above the centre of the highest block, for the same reason as the first;
* the lower face right above `-1/2`, the centre of block `-1` (`LooseLower`).

Every other face selects exactly the blocks on its inner side (`le_floorCoordinate_iff_centreAt_le`,
`ceilCoordinate_le_iff_le_centreAt`).

The argument is about one step of the order of numbers.  A centre and its neighbour are successive
multiples of a power of two by factors of at most 53 bits (`exists_step`).  Moved by half a block,
the neighbour is again such a multiple, so the subtraction is exact, unless the factor has grown to
54 bits.  That takes a centre just inside of a power of two, and then the tie goes to the corner,
whose significand is even.
-/

set_option autoImplicit false

namespace RegionRules
namespace Binary64

/-! ## Neighbours in the order of numbers -/

lemma shift_mono {r q : ℕ} (h : r ≤ q) : shift r ≤ shift q :=
  Nat.sub_le_sub_right (Nat.div_le_div_right h) 1

/-- Two neighbouring numbers are successive multiples of a power of two, by factors of at most 53
bits, and above the finest spacing of no fewer. -/
lemma exists_step (p : ℤ) : ∃ (m : ℤ) (s : ℕ), -2 ^ 53 ≤ m ∧ m < 2 ^ 53 ∧
    (s = 0 ∨ 2 ^ 52 ≤ m ∨ m < -2 ^ 52) ∧
      valueAt p = m * pow2 s ∧ valueAt (p + 1) = (m + 1) * pow2 s := by
  rcases le_or_gt 0 p with hp | hp
  · have hlt := significand_lt p.natAbs
    have hfull := shift_eq_zero_or_le_significand p.natAbs
    rw [binade_eq] at hlt hfull
    refine ⟨significand p.natAbs, shift p.natAbs, by omega, by omega, by omega, ?_, ?_⟩
    · rw [valueAt_nonneg hp, magnitude, Nat.cast_mul]
    · rw [valueAt_nonneg (by omega), show (p + 1).natAbs = p.natAbs + 1 by omega, magnitude_succ,
        magnitude]
      push_cast
      ring
  · obtain ⟨r, rfl⟩ : ∃ r : ℕ, p = -(r + 1) := ⟨(-p - 1).toNat, by omega⟩
    have hlt := significand_lt r
    have hfull := shift_eq_zero_or_le_significand r
    rw [binade_eq] at hlt hfull
    refine ⟨-(significand r + 1), shift r, by omega, by omega, by omega, ?_, ?_⟩
    · rw [valueAt_nonpos hp.le, show (-((r : ℤ) + 1)).natAbs = r + 1 by omega, magnitude_succ,
        magnitude]
      push_cast
      ring
    · rw [valueAt_nonpos (by omega), show (-((r : ℤ) + 1) + 1).natAbs = r by omega, magnitude]
      push_cast
      ring

/-- Away from zero the numbers get no closer. -/
lemma valueAt_sub_one_le {p : ℤ} (hp : p < 0) :
    valueAt (p - 1) ≤ 2 * valueAt p - valueAt (p + 1) := by
  obtain ⟨r, rfl⟩ : ∃ r : ℕ, p = -(r + 1) := ⟨(-p - 1).toNat, by omega⟩
  have hgap : pow2 (shift r) ≤ pow2 (shift (r + 1)) := pow2_mono (shift_mono (Nat.le_succ r))
  have hnear := magnitude_succ r
  have hfar := magnitude_succ (r + 1)
  rw [valueAt_nonpos (by omega), valueAt_nonpos hp.le, valueAt_nonpos (by omega),
    show (-((r : ℤ) + 1) - 1).natAbs = r + 1 + 1 by omega,
    show (-((r : ℤ) + 1)).natAbs = r + 1 by omega,
    show (-((r : ℤ) + 1) + 1).natAbs = r by omega]
  omega

/-! ## Centres -/

/-- The centre of the blocks at a coordinate, on the axis of the coordinate. -/
def centreAt (c : Int32) : Binary64 := ofCoordinate c + half

lemma isHalves_centreAt (c : Int32) : IsHalves (centreAt c) (2 * c.toInt + 1) := by
  have hlow := c.le_toInt
  have hhigh := c.toInt_lt
  exact (isHalves_ofInt (by omega)).add isHalves_half (by omega)

lemma valueAt_place_centreAt (c : Int32) :
    valueAt (centreAt c).place = (2 * c.toInt + 1) * halfUnit := (isHalves_centreAt c).value_eq

lemma halfUnit_eq_mul {s t : ℕ} (h : s + t = 1073) : halfUnit = 2 ^ t * pow2 s := by
  rw [halfUnit, ← h, pow2_add, pow2_eq_pow t, Nat.cast_mul, Nat.cast_pow, Nat.cast_ofNat, mul_comm]

lemma place_centreAt_neg {c : Int32} (h : c.toInt < 0) : (centreAt c).place < 0 := by
  by_contra hge
  have hnonneg : 0 ≤ valueAt (centreAt c).place := by
    rw [valueAt_nonneg (not_lt.1 hge)]
    exact Int.natCast_nonneg _
  have hneg : (2 * c.toInt + 1) * halfUnit < 0 := mul_neg_of_neg_of_pos (by omega) halfUnit_pos
  rw [valueAt_place_centreAt] at hnonneg
  exact absurd hnonneg (not_le.2 hneg)

/-- An odd number of halves is a multiple of no power of two above a half. -/
lemma exists_factor_eq {k n : ℤ} {s : ℕ} (h : n * pow2 s = (2 * k + 1) * halfUnit) :
    ∃ t, s + t = 1073 ∧ n = (2 * k + 1) * 2 ^ t := by
  have hs : s ≤ 1073 := by
    by_contra hlt
    obtain ⟨j, rfl⟩ := Nat.exists_eq_add_of_le (show 1074 ≤ s by omega)
    have hcancel : n * pow2 j * 2 = 2 * k + 1 := by
      refine mul_right_cancel₀ halfUnit_pos.ne' ?_
      rw [← h, pow2_add, show pow2 1074 = pow2 unitScale from rfl, Nat.cast_mul, pow2_unitScale]
      ring
    omega
  obtain ⟨t, ht⟩ := Nat.exists_eq_add_of_le hs
  refine ⟨t, ht.symm, mul_right_cancel₀ (show (pow2 s : ℤ) ≠ 0 by
    exact_mod_cast (pow2_pos s).ne') ?_⟩
  rw [h, halfUnit_eq_mul ht.symm, mul_assoc]

/-! ## Moving by half a block -/

section Moved

variable {x : Binary64} {c : Int32} {m v : ℤ} {s : ℕ}

lemma valueAt_roundedPlace_le (hm : m.natAbs < 2 ^ 53) (hs : s ≤ 2000) (h : v ≤ m * pow2 s) :
    valueAt (roundedPlace v) ≤ m * pow2 s := by
  rw [← valueAt_roundedPlace hm hs]
  exact valueAt_strictMono.monotone (roundedPlace_mono h)

lemma le_valueAt_roundedPlace (hm : m.natAbs < 2 ^ 53) (hs : s ≤ 2000) (h : m * pow2 s ≤ v) :
    m * pow2 s ≤ valueAt (roundedPlace v) := by
  rw [← valueAt_roundedPlace hm hs]
  exact valueAt_strictMono.monotone (roundedPlace_mono h)

lemma value_sub_half (hx : x.IsFinite) :
    (x - half).value = valueAt (roundedPlace (x.value - halfUnit)) := by
  rw [value, place_sub hx isHalves_half.isFinite, isHalves_half.value_eq, one_mul]

/-- An upper face selects the lowest block, and those whose lower corner it does not fall short of
when it is moved. -/
lemma le_floorCoordinate_iff_value (hx : InWorld x) : c ≤ (x - half).floorCoordinate ↔
    c = Int32.minValue ∨ 2 * c.toInt * halfUnit ≤ (x - half).value := by
  have hlow := c.le_toInt
  have hhigh := c.toInt_lt
  have hdiv := Int.le_ediv_iff_mul_le (a := c.toInt) (b := (x - half).value)
    (show 0 < 2 * halfUnit by linarith [halfUnit_pos])
  rw [show c.toInt * (2 * halfUnit) = 2 * c.toInt * halfUnit by ring] at hdiv
  rw [floorCoordinate_eq hx.isFinite_sub_half, Int32.le_iff_toInt_le, toInt_ofIntClamp, ← hdiv,
    ← Int32.toInt_inj, minValue_toInt]
  omega

/-- A lower face selects the highest block, and those whose lower corner it does not exceed when it
is moved. -/
lemma ceilCoordinate_le_iff_value (hx : InWorld x) : (x - half).ceilCoordinate ≤ c ↔
    c = Int32.maxValue ∨ (x - half).value ≤ 2 * c.toInt * halfUnit := by
  have hlow := c.le_toInt
  have hhigh := c.toInt_lt
  have hdiv := Int.le_ediv_iff_mul_le (a := -c.toInt) (b := -(x - half).value)
    (show 0 < 2 * halfUnit by linarith [halfUnit_pos])
  rw [show -c.toInt * (2 * halfUnit) = -(2 * c.toInt * halfUnit) by ring, neg_le_neg_iff] at hdiv
  rw [ceilCoordinate_eq hx.isFinite_sub_half, Int32.le_iff_toInt_le, toInt_ofIntClamp, ← hdiv,
    ← Int32.toInt_inj, maxValue_toInt]
  omega

end Moved

/-! ## Upper faces -/

/-- The upper face selects a block it cuts off: it is below the centre of the lowest block, or right
below the centre of a block at a negated power of two. -/
def LooseUpper (x : Binary64) : Prop :=
  x < centreAt Int32.minValue ∨
    ∃ e < 31, x.place = (centreAt (Int32.ofInt (-2 ^ e))).place - 1

instance : DecidablePred LooseUpper := fun _ => inferInstanceAs (Decidable (_ ∨ _))

section Upper

variable {k : ℤ} {t : ℕ}

/-- A corner with a factor of `2 ^ 53` or more, at a centre of fewer, is a power of two. -/
lemma eq_neg_pow (ht : t < 53) (hcentre : -2 ^ 53 ≤ (2 * k + 1) * 2 ^ t)
    (hcorner : k * 2 ^ t ≤ -2 ^ 52) : k = -2 ^ (52 - t) := by
  have hpos : (0 : ℤ) < 2 ^ t := by positivity
  have hexact : (2 : ℤ) ^ (52 - t) * 2 ^ t = 2 ^ 52 := by
    rw [← pow_add, Nat.sub_add_cancel (Nat.le_of_lt_succ ht)]
  have hle : k ≤ -2 ^ (52 - t) := by
    refine le_of_mul_le_mul_right (a := (2 : ℤ) ^ t) ?_ hpos
    rwa [neg_mul, hexact]
  have hgt : -2 ^ (52 - t) - 1 < k := by
    refine lt_of_mul_lt_mul_right (a := (2 : ℤ) ^ t) ?_ hpos.le
    rw [sub_mul, neg_mul, hexact, one_mul]
    rw [show (2 * k + 1) * 2 ^ t = 2 * (k * 2 ^ t) + 2 ^ t by ring] at hcentre
    omega
  omega

/-- Moved by half a block, the number below a centre keeps its 53 bits, unless the block is at a
negated power of two. -/
lemma natAbs_below_lt (hlow : -2 ^ 53 ≤ (2 * k + 1) * 2 ^ t - 1)
    (hhigh : (2 * k + 1) * 2 ^ t - 1 < 2 ^ 53) (hk : ∀ e : ℕ, k ≠ -2 ^ e) :
    (2 * k * 2 ^ t - 1).natAbs < 2 ^ 53 := by
  have hpos : (0 : ℤ) < 2 ^ t := by positivity
  have hsplit : (2 * k + 1) * 2 ^ t = 2 * (k * 2 ^ t) + 2 ^ t := by ring
  rw [mul_assoc]
  rcases le_or_gt 0 k with h0 | h0
  · have : 0 ≤ k * 2 ^ t := mul_nonneg h0 hpos.le
    omega
  by_contra hge
  have hnonpos : (k + 1) * 2 ^ t ≤ 0 := mul_nonpos_of_nonpos_of_nonneg (by omega) hpos.le
  rw [add_mul, one_mul] at hnonpos
  have ht : t < 53 := (pow_lt_pow_iff_right₀ (by norm_num)).1 (show (2 : ℤ) ^ t < 2 ^ 53 by omega)
  exact hk (52 - t) (eq_neg_pow ht (by omega) (by omega))

variable {x : Binary64} {c : Int32}

/-- Away from the powers of two, a face below a centre stays below the corner of the block. -/
lemma value_sub_half_lt (hc : ∀ e : ℕ, c.toInt ≠ -2 ^ e) (hx : x.IsFinite)
    (h : x.place < (centreAt c).place) : (x - half).value < 2 * c.toInt * halfUnit := by
  obtain ⟨m, s, hlow, hhigh, -, hbelow, hcentre⟩ := exists_step ((centreAt c).place - 1)
  rw [sub_add_cancel, valueAt_place_centreAt] at hcentre
  obtain ⟨t, hst, hfactor⟩ := exists_factor_eq hcentre.symm
  obtain rfl : m = (2 * c.toInt + 1) * 2 ^ t - 1 := by omega
  have hhalf := halfUnit_eq_mul hst
  have hpos : (0 : ℤ) < pow2 s := by exact_mod_cast pow2_pos s
  have hvalue : x.value ≤ ((2 * c.toInt + 1) * 2 ^ t - 1) * pow2 s := by
    rw [← hbelow]
    exact valueAt_strictMono.monotone (by omega)
  rw [value_sub_half hx]
  calc
    valueAt (roundedPlace (x.value - halfUnit)) ≤ (2 * c.toInt * 2 ^ t - 1) * pow2 s := by
      refine valueAt_roundedPlace_le (natAbs_below_lt hlow hhigh hc) (by omega) ?_
      rw [hhalf]
      linarith
    _ < 2 * c.toInt * halfUnit := by
      rw [hhalf]
      linarith

/-- At a negated power of two, the corner of the block has a factor of `2 ^ 53` on the spacing below
the centre. -/
lemma exists_step_power {e : ℕ} (hc : c.toInt = -2 ^ e) : ∃ s ≤ 1073,
    2 * c.toInt * halfUnit = -2 ^ 53 * pow2 s ∧
      valueAt ((centreAt c).place - 1) = valueAt (centreAt c).place - pow2 s := by
  obtain ⟨m, s, hlow, hhigh, hfull, hbelow, hcentre⟩ := exists_step ((centreAt c).place - 1)
  rw [sub_add_cancel, valueAt_place_centreAt] at hcentre
  obtain ⟨t, hst, hfactor⟩ := exists_factor_eq hcentre.symm
  have hfactor' : m + 1 = 2 ^ t - 2 ^ (e + t) * 2 := by
    rw [hfactor, hc]
    ring
  have hmono : (2 : ℤ) ^ t ≤ 2 ^ (e + t) := pow_le_pow_right₀ (by norm_num) (by omega)
  have hpos : (0 : ℤ) < 2 ^ t := by positivity
  have htop : e + t < 53 :=
    (pow_lt_pow_iff_right₀ (by norm_num)).1 (show (2 : ℤ) ^ (e + t) < 2 ^ 53 by omega)
  have hbottom : 51 < e + t :=
    (pow_lt_pow_iff_right₀ (by norm_num)).1 (show (2 : ℤ) ^ 51 < 2 ^ (e + t) by omega)
  refine ⟨s, by omega, ?_, ?_⟩
  · have hexact : (2 : ℤ) ^ e * 2 ^ t = 2 ^ 52 := by
      rw [← pow_add, show e + t = 52 by omega]
    rw [hc, halfUnit_eq_mul hst]
    linear_combination -2 * pow2 s * hexact
  · rw [hbelow, valueAt_place_centreAt, hcentre]
    ring

lemma pow2_succ (s : ℕ) : (pow2 (s + 1) : ℤ) = 2 * pow2 s := by
  rw [pow2_add, pow2_eq_pow 1]
  push_cast
  ring

/-- A negated number of 54 bits loses the last one, a tie going to the even neighbour. -/
lemma valueAt_roundedPlace_neg {n s : ℕ} (hn : n.log2 = 53) (hs : s ≤ 1073) :
    valueAt (roundedPlace (-n * pow2 s)) = -roundHalfEven n 2 * pow2 (s + 1) := by
  have hn0 : n ≠ 0 := by
    rintro rfl
    simp at hn
  have hdropped : dropped n s = 1 := by
    unfold dropped
    omega
  have hkept : kept n 1 = roundHalfEven n 2 := by
    rw [kept, if_neg (by norm_num), Int.toNat_one, pow2_eq_pow, pow_one]
  have hlow : binade ≤ kept n 1 := le_kept hn0 (by omega)
  have hhigh : kept n 1 ≤ 2 * binade := kept_le (by omega)
  have hrank : nearestRank n s = (s + 1) * binade + kept n 1 := by
    have hfits : (s + 1) * binade + kept n 1 ≤ infRank := by
      have hmul := Nat.mul_le_mul_right binade (show s + 1 ≤ 1074 by omega)
      rw [infRank_eq]
      omega
    rw [nearestRank_eq, if_neg hn0, unboundedRank, hdropped,
      show ((s : ℤ) + 1).toNat = s + 1 by omega, min_eq_right hfits]
  rw [neg_mul, roundedPlace_neg, roundedPlace_of_nonneg (by positivity), Int.natAbs_mul,
    Int.natAbs_natCast, Int.natAbs_natCast, nearestRank_mul_pow2, hrank, valueAt_neg,
    valueAt_natCast, magnitude_compose hhigh (.inr hlow), hkept]
  push_cast
  ring

section Power

variable {e : ℕ} (hc : c.toInt = -2 ^ e) (hx : x.IsFinite)

include hc hx

/-- The number right below such a centre is moved onto the corner of the block. -/
lemma le_value_sub_half_of_power (h : x.place = (centreAt c).place - 1) :
    2 * c.toInt * halfUnit ≤ (x - half).value := by
  obtain ⟨s, hs, hcorner, hbelow⟩ := exists_step_power hc
  have hmoved : x.value - halfUnit = -(2 ^ 53 + 1 : ℕ) * pow2 s := by
    rw [value, h, hbelow, valueAt_place_centreAt]
    push_cast
    linear_combination hcorner
  have heven : roundHalfEven (2 ^ 53 + 1) 2 = 2 ^ 52 := by norm_num [roundHalfEven]
  rw [value_sub_half hx, hmoved, valueAt_roundedPlace_neg (by decide) hs, heven, pow2_succ, hcorner]
  refine le_of_eq ?_
  push_cast
  ring

/-- The numbers further down are not. -/
lemma value_sub_half_lt_of_power (h : x.place ≤ (centreAt c).place - 2) :
    (x - half).value < 2 * c.toInt * halfUnit := by
  obtain ⟨s, hs, hcorner, hbelow⟩ := exists_step_power hc
  have hpos : (0 : ℤ) < pow2 s := by exact_mod_cast pow2_pos s
  have hneg : (centreAt c).place < 0 := place_centreAt_neg (by
    rw [hc]
    exact neg_neg_of_pos (by positivity))
  have hgap := valueAt_sub_one_le (show (centreAt c).place - 1 < 0 by omega)
  rw [sub_add_cancel, show (centreAt c).place - 1 - 1 = (centreAt c).place - 2 by ring, hbelow,
    valueAt_place_centreAt] at hgap
  have hvalue : x.value ≤ valueAt ((centreAt c).place - 2) := valueAt_strictMono.monotone h
  have hmoved : x.value - halfUnit ≤ (-2 ^ 52 - 1) * pow2 (s + 1) := by
    rw [pow2_succ]
    linarith
  calc
    (x - half).value = valueAt (roundedPlace (x.value - halfUnit)) := value_sub_half hx
    _ ≤ (-2 ^ 52 - 1) * pow2 (s + 1) := valueAt_roundedPlace_le (by norm_num) (by omega) hmoved
    _ < 2 * c.toInt * halfUnit := by
      rw [hcorner, pow2_succ]
      linarith

end Power

/-! The two sides are now put together.  The lowest block takes part only through the clamp. -/

lemma toInt_negPower {e : ℕ} (he : e < 31) : (Int32.ofInt (-2 ^ e)).toInt = -2 ^ e := by
  have hle : (2 : ℤ) ^ e ≤ 2 ^ 30 := pow_le_pow_right₀ (by norm_num) (by omega)
  have hpos : (0 : ℤ) < 2 ^ e := by positivity
  exact Int32.toInt_ofInt_of_le (by omega) (by omega)

lemma exists_negPower (hc : c ≠ Int32.minValue) {e : ℕ} (h : c.toInt = -2 ^ e) :
    e < 31 ∧ c = Int32.ofInt (-2 ^ e) := by
  have hlow := c.le_toInt
  have hne : c.toInt ≠ -2 ^ 31 := fun heq => hc (Int32.toInt_inj.1 (by
    rw [heq, minValue_toInt]
    norm_num))
  have he : e < 31 :=
    (pow_lt_pow_iff_right₀ (by norm_num)).1 (show (2 : ℤ) ^ e < 2 ^ 31 by omega)
  exact ⟨he, Int32.toInt_inj.1 (by rw [h, toInt_negPower he])⟩

/-- **An upper face selects the blocks whose centres it reaches, unless it is loose.** -/
theorem le_floorCoordinate_iff_centreAt_le (hx : InWorld x) (h : ¬ LooseUpper x) :
    c ≤ (x - half).floorCoordinate ↔ centreAt c ≤ x := by
  refine ⟨fun hsel => ?_, le_floorCoordinate_of_centre_le hx (isHalves_centreAt c)⟩
  have hnan := (isHalves_centreAt c).isFinite.ne_nan
  by_contra hcut
  have hplace : x.place < (centreAt c).place := by
    by_contra hge
    exact hcut (le_iff.2 ⟨hnan, hx.isFinite.ne_nan, not_lt.1 hge⟩)
  have hbelow : x < centreAt c := lt_iff.2 ⟨hx.isFinite.ne_nan, hnan, hplace⟩
  rcases (le_floorCoordinate_iff_value hx).1 hsel with rfl | hcorner
  · exact h (.inl hbelow)
  by_cases hpower : ∃ e : ℕ, c.toInt = -2 ^ e
  · obtain ⟨e, he⟩ := hpower
    by_cases hc : c = Int32.minValue
    · exact h (.inl (hc ▸ hbelow))
    obtain ⟨he31, rfl⟩ := exists_negPower hc he
    have hfar : x.place ≠ _ := fun heq => h (.inr ⟨e, he31, heq⟩)
    exact absurd hcorner (not_le.2 (value_sub_half_lt_of_power he hx.isFinite (by omega)))
  · exact absurd hcorner (not_le.2 (value_sub_half_lt (not_exists.1 hpower) hx.isFinite hplace))

/-- **A loose upper face selects a block it cuts off.** -/
theorem LooseUpper.exists_selected (hx : InWorld x) (h : LooseUpper x) :
    ∃ c, c ≤ (x - half).floorCoordinate ∧ ¬ centreAt c ≤ x := by
  rcases h with hlow | ⟨e, he, hplace⟩
  · refine ⟨Int32.minValue, (le_floorCoordinate_iff_value hx).2 (.inl rfl), fun hle => ?_⟩
    have := (lt_iff.1 hlow).2.2
    have := (le_iff.1 hle).2.2
    omega
  · refine ⟨Int32.ofInt (-2 ^ e), (le_floorCoordinate_iff_value hx).2 (.inr ?_), fun hle => ?_⟩
    · exact le_value_sub_half_of_power (toInt_negPower he) hx.isFinite hplace
    · have := (le_iff.1 hle).2.2
      omega

end Upper

/-! ## Lower faces -/

/-- The lower face selects a block it cuts off: it is above the centre of the highest block, or
right above the centre of block `-1`. -/
def LooseLower (x : Binary64) : Prop :=
  centreAt Int32.maxValue < x ∨ x.place = (centreAt (-1)).place + 1

instance : DecidablePred LooseLower := fun _ => inferInstanceAs (Decidable (_ ∨ _))

section Lower

variable {k : ℤ} {t : ℕ}

/-- Moved by half a block, the number above a centre keeps its 53 bits, unless the block is at
`-1`. -/
lemma natAbs_above_lt (hlow : -2 ^ 53 ≤ (2 * k + 1) * 2 ^ t)
    (hhigh : (2 * k + 1) * 2 ^ t < 2 ^ 53) (hk : k ≠ -1) :
    (2 * k * 2 ^ t + 1).natAbs < 2 ^ 53 := by
  have hpos : (0 : ℤ) < 2 ^ t := by positivity
  have hsplit : (2 * k + 1) * 2 ^ t = 2 * (k * 2 ^ t) + 2 ^ t := by ring
  rw [mul_assoc]
  rcases le_or_gt 0 k with h0 | h0
  · have : 0 ≤ k * 2 ^ t := mul_nonneg h0 hpos.le
    omega
  by_contra hge
  have hnonpos : (k + 2) * 2 ^ t ≤ 0 := mul_nonpos_of_nonpos_of_nonneg (by omega) hpos.le
  rw [add_mul] at hnonpos
  have ht : t < 53 := (pow_lt_pow_iff_right₀ (by norm_num)).1 (show (2 : ℤ) ^ t < 2 ^ 53 by omega)
  -- The corner would be at the power of two itself, which is exact.
  have hpower := eq_neg_pow ht hlow (by omega)
  have hexact : k * 2 ^ t = -2 ^ 52 := by
    rw [hpower, neg_mul, ← pow_add, Nat.sub_add_cancel (Nat.le_of_lt_succ ht)]
  omega

variable {x : Binary64} {c : Int32}

/-- Away from block `-1`, a face above a centre stays above the corner of the block. -/
lemma lt_value_sub_half (hc : c.toInt ≠ -1) (hx : x.IsFinite)
    (h : (centreAt c).place < x.place) : 2 * c.toInt * halfUnit < (x - half).value := by
  obtain ⟨m, s, hlow, hhigh, -, hcentre, habove⟩ := exists_step (centreAt c).place
  rw [valueAt_place_centreAt] at hcentre
  obtain ⟨t, hst, rfl⟩ := exists_factor_eq hcentre.symm
  have hhalf := halfUnit_eq_mul hst
  have hpos : (0 : ℤ) < pow2 s := by exact_mod_cast pow2_pos s
  have hvalue : ((2 * c.toInt + 1) * 2 ^ t + 1) * pow2 s ≤ x.value := by
    rw [← habove]
    exact valueAt_strictMono.monotone h
  rw [value_sub_half hx]
  calc
    2 * c.toInt * halfUnit < (2 * c.toInt * 2 ^ t + 1) * pow2 s := by
      rw [hhalf]
      linarith
    _ ≤ valueAt (roundedPlace (x.value - halfUnit)) := by
      refine le_valueAt_roundedPlace (natAbs_above_lt hlow hhigh hc) (by omega) ?_
      rw [hhalf]
      linarith

/-- Around the centre of block `-1` the numbers above are evenly spaced for a while. -/
lemma valueAt_place_neg_one_add {j : ℕ} (hj : j ≤ 2 ^ 52) :
    valueAt ((centreAt (-1)).place + j) = (j - 2 ^ 53) * pow2 1020 := by
  have hvalue {m : ℕ} (hlow : binade ≤ m) (hhigh : m ≤ 2 * binade) :
      valueAt (-(1020 * binade + m : ℕ)) = -m * pow2 1020 := by
    rw [valueAt_neg, valueAt_natCast, magnitude_compose hhigh (.inr hlow)]
    push_cast
    ring
  have hcentre : (centreAt (-1)).place = -(1020 * binade + 2 * binade : ℕ) := by
    refine valueAt_strictMono.injective ?_
    rw [valueAt_place_centreAt, hvalue (by omega) le_rfl, halfUnit_eq_mul (show 1020 + 53 = 1073 by
      norm_num), binade_eq, show (-1 : Int32).toInt = -1 by decide]
    push_cast
    ring
  rw [binade_eq] at hcentre hvalue
  rw [hcentre, show (-((1020 * 2 ^ 52 + 2 * 2 ^ 52 : ℕ) : ℤ) + j) =
    -(1020 * 2 ^ 52 + (2 * 2 ^ 52 - j) : ℕ) by omega, hvalue (by omega) (by omega),
    Nat.cast_sub (by omega)]
  push_cast
  ring

/-- The number right above the centre of block `-1` is moved onto the corner of the block, and no
other number above the centre is. -/
lemma value_sub_half_le_neg_one_iff (hx : x.IsFinite) (h : (centreAt (-1)).place < x.place) :
    (x - half).value ≤ -2 * halfUnit ↔ x.place = (centreAt (-1)).place + 1 := by
  have hhalf : halfUnit = 2 ^ 53 * pow2 1020 := halfUnit_eq_mul (by norm_num)
  have hpos : (0 : ℤ) < pow2 1020 := by exact_mod_cast pow2_pos 1020
  have hone : valueAt ((centreAt (-1)).place + 1) = (1 - 2 ^ 53) * pow2 1020 :=
    valueAt_place_neg_one_add (j := 1) (by norm_num)
  have htwo : valueAt ((centreAt (-1)).place + 2) = (2 - 2 ^ 53) * pow2 1020 :=
    valueAt_place_neg_one_add (j := 2) (by norm_num)
  rw [value_sub_half hx]
  constructor
  · intro hle
    by_contra hne
    have hvalue : (2 - 2 ^ 53) * pow2 1020 ≤ x.value := by
      rw [← htwo]
      exact valueAt_strictMono.monotone (by omega)
    have hmoved : (1 - 2 ^ 53) * pow2 (1020 + 1) ≤ x.value - halfUnit := by
      rw [hhalf, pow2_succ]
      linarith
    have hkept := le_valueAt_roundedPlace (by norm_num) (by norm_num) hmoved
    rw [pow2_succ] at hkept
    rw [hhalf] at hle hkept
    linarith
  · intro heq
    have hmoved : x.value - halfUnit = -(2 ^ 54 - 1 : ℕ) * pow2 1020 := by
      rw [value, heq, hone, hhalf]
      push_cast
      ring
    have heven : roundHalfEven (2 ^ 54 - 1) 2 = 2 ^ 53 := by norm_num [roundHalfEven]
    rw [hmoved, valueAt_roundedPlace_neg (by decide) (by norm_num), heven, pow2_succ, hhalf]
    refine le_of_eq ?_
    push_cast
    ring

/-- **A lower face selects the blocks whose centres it does not exceed, unless it is loose.** -/
theorem ceilCoordinate_le_iff_le_centreAt (hx : InWorld x) (h : ¬ LooseLower x) :
    (x - half).ceilCoordinate ≤ c ↔ x ≤ centreAt c := by
  refine ⟨fun hsel => ?_, ceilCoordinate_le_of_le_centre hx (isHalves_centreAt c)⟩
  have hnan := (isHalves_centreAt c).isFinite.ne_nan
  by_contra hcut
  have hplace : (centreAt c).place < x.place := by
    by_contra hge
    exact hcut (le_iff.2 ⟨hx.isFinite.ne_nan, hnan, not_lt.1 hge⟩)
  rcases (ceilCoordinate_le_iff_value hx).1 hsel with rfl | hcorner
  · exact h (.inl (lt_iff.2 ⟨hnan, hx.isFinite.ne_nan, hplace⟩))
  by_cases hc : c.toInt = -1
  · obtain rfl : c = -1 := Int32.toInt_inj.1 hc
    exact h (.inr ((value_sub_half_le_neg_one_iff hx.isFinite hplace).1 hcorner))
  · exact absurd hcorner (not_le.2 (lt_value_sub_half hc hx.isFinite hplace))

/-- **A loose lower face selects a block it cuts off.** -/
theorem LooseLower.exists_selected (hx : InWorld x) (h : LooseLower x) :
    ∃ c, (x - half).ceilCoordinate ≤ c ∧ ¬ x ≤ centreAt c := by
  rcases h with hhigh | hplace
  · refine ⟨Int32.maxValue, (ceilCoordinate_le_iff_value hx).2 (.inl rfl), fun hle => ?_⟩
    have := (lt_iff.1 hhigh).2.2
    have := (le_iff.1 hle).2.2
    omega
  · have habove : (centreAt (-1)).place < x.place := by omega
    refine ⟨-1, (ceilCoordinate_le_iff_value hx).2 (.inr ?_), fun hle => ?_⟩
    · exact (value_sub_half_le_neg_one_iff hx.isFinite habove).2 hplace
    · have := (le_iff.1 hle).2.2
      omega

end Lower

end Binary64
end RegionRules
