import RegionRules.Proofs.Binary64.Rounding

/-!
# Sums as rounded integers

A finite number has a *value*, a whole number of ticks, and a *place* in the order of numbers, a
signed rank.  The order of numbers is the order of places, and so is the order of values
(`value_le_value_iff`).  The place of a sum is the place that the exact sum of the values is rounded
to (`place_add`).  Rounding is monotone (`roundedPlace_mono`), and it keeps values of few enough
bits (`valueAt_roundedPlace`), so sums are monotone in either term, and exact on short numbers.
-/

set_option autoImplicit false

namespace RegionRules
namespace Binary64

/-! ## Places and values -/

/-- The place of a number in the order of numbers; zero for NaN, which has none. -/
def place : Binary64 → ℤ
  | .nan => 0
  | .num negative rank _ => position negative rank

/-- The value at a place, in ticks. -/
def valueAt (p : ℤ) : ℤ := p.sign * magnitude p.natAbs

/-- The value of a number in ticks; zero for NaN, which has none. -/
def value (x : Binary64) : ℤ := valueAt x.place

/-- The number is neither NaN nor infinite. -/
def IsFinite : Binary64 → Prop
  | .nan => False
  | .num _ rank _ => rank < infRank

lemma num_ne_nan {negative : Bool} {rank : ℕ} {h : rank ≤ infRank} :
    num negative rank h ≠ .nan := by
  intro heq
  cases heq

lemma natAbs_place_le (x : Binary64) : x.place.natAbs ≤ infRank := by
  rcases x with _ | ⟨s, r, hr⟩
  · exact Nat.zero_le _
  · cases s <;> simpa [place, position] using hr

lemma isFinite_iff {x : Binary64} : x.IsFinite ↔ x ≠ .nan ∧ x.place.natAbs < infRank := by
  rcases x with _ | ⟨s, r, hr⟩
  · simp [IsFinite]
  · cases s <;> simp [IsFinite, place, position]

lemma IsFinite.ne_nan {x : Binary64} (h : x.IsFinite) : x ≠ .nan := by
  rintro rfl
  exact h

lemma le_iff {a b : Binary64} : a ≤ b ↔ a ≠ .nan ∧ b ≠ .nan ∧ a.place ≤ b.place := by
  change a.le b = true ↔ _
  rcases a with _ | ⟨s, r, hr⟩
  · simp [le]
  rcases b with _ | ⟨t, q, hq⟩
  · simp [le]
  · rw [le_num]
    simp [place]

lemma lt_iff {a b : Binary64} : a < b ↔ a ≠ .nan ∧ b ≠ .nan ∧ a.place < b.place := by
  change a.lt b = true ↔ _
  rcases a with _ | ⟨s, r, hr⟩
  · simp [lt]
  rcases b with _ | ⟨t, q, hq⟩
  · simp [lt]
  · rw [lt_num]
    simp [place]

lemma magnitude_zero : magnitude 0 = 0 := by
  simp [magnitude, significand, binade_pos]

lemma valueAt_natCast (r : ℕ) : valueAt r = magnitude r := by
  rcases Nat.eq_zero_or_pos r with rfl | hr
  · simp [valueAt, magnitude_zero]
  · rw [valueAt, Int.sign_eq_one_of_pos (by exact_mod_cast hr), one_mul, Int.natAbs_natCast]

lemma valueAt_neg (p : ℤ) : valueAt (-p) = -valueAt p := by
  simp [valueAt]

/-- The value agrees with the ticks that the coordinates are computed from. -/
lemma value_num (negative : Bool) (rank : ℕ) (h : rank ≤ infRank) :
    (num negative rank h).value = ticks negative rank := by
  cases negative <;> simp [value, place, position, ticks, valueAt_natCast, valueAt_neg]

lemma valueAt_nonneg {p : ℤ} (h : 0 ≤ p) : valueAt p = magnitude p.natAbs := by
  conv_lhs => rw [← Int.natAbs_of_nonneg h, valueAt_natCast]

lemma valueAt_nonpos {p : ℤ} (h : p ≤ 0) : valueAt p = -magnitude p.natAbs := by
  rw [← neg_neg p, valueAt_neg, valueAt_nonneg (by omega), neg_neg, Int.natAbs_neg]

lemma valueAt_strictMono : StrictMono valueAt := by
  intro p q hpq
  rcases le_total 0 p with hp | hp
  · have := magnitude_strictMono (show p.natAbs < q.natAbs by omega)
    rw [valueAt_nonneg hp, valueAt_nonneg (hp.trans hpq.le)]
    exact_mod_cast this
  rcases le_total q 0 with hq | hq
  · have := magnitude_strictMono (show q.natAbs < p.natAbs by omega)
    rw [valueAt_nonpos hp, valueAt_nonpos hq]
    omega
  · have hne : p.natAbs ≠ 0 ∨ q.natAbs ≠ 0 := by omega
    rw [valueAt_nonpos hp, valueAt_nonneg hq]
    rcases hne with h | h <;> have := magnitude_strictMono (Nat.pos_of_ne_zero h) <;> omega

lemma value_le_value_iff {a b : Binary64} : a.value ≤ b.value ↔ a.place ≤ b.place :=
  valueAt_strictMono.le_iff_le

/-! ## Rounding integers -/

/-- The place that a whole number of ticks is rounded to. -/
def roundedPlace (v : ℤ) : ℤ := v.sign * nearestRank v.natAbs 0

lemma nearestRank_zero : nearestRank 0 0 = 0 := by
  simp [nearestRank_eq]

lemma roundedPlace_neg (v : ℤ) : roundedPlace (-v) = -roundedPlace v := by
  simp [roundedPlace]

lemma roundedPlace_of_nonneg {v : ℤ} (h : 0 ≤ v) : roundedPlace v = nearestRank v.natAbs 0 := by
  rcases h.lt_or_eq with h | rfl
  · rw [roundedPlace, Int.sign_eq_one_of_pos h, one_mul]
  · simp [roundedPlace, nearestRank_zero]

lemma roundedPlace_of_nonpos {v : ℤ} (h : v ≤ 0) : roundedPlace v = -nearestRank v.natAbs 0 := by
  rw [← neg_neg v, roundedPlace_neg, roundedPlace_of_nonneg (by omega), neg_neg, Int.natAbs_neg]

lemma roundedPlace_mono : Monotone roundedPlace := by
  intro v w h
  rcases le_total 0 v with hv | hv
  · have hmono := nearestRank_mono 0 (show v.natAbs ≤ w.natAbs by omega)
    rw [roundedPlace_of_nonneg hv, roundedPlace_of_nonneg (hv.trans h)]
    exact_mod_cast hmono
  · rw [roundedPlace_of_nonpos hv]
    rcases le_total 0 w with hw | hw
    · rw [roundedPlace_of_nonneg hw]
      omega
    · have hmono := nearestRank_mono 0 (show w.natAbs ≤ v.natAbs by omega)
      rw [roundedPlace_of_nonpos hw]
      omega

lemma natAbs_roundedPlace (v : ℤ) : (roundedPlace v).natAbs = nearestRank v.natAbs 0 := by
  rcases le_total 0 v with h | h
  · rw [roundedPlace_of_nonneg h, Int.natAbs_natCast]
  · rw [roundedPlace_of_nonpos h, Int.natAbs_neg, Int.natAbs_natCast]

lemma nearestRank_mul_pow2 (n e : ℕ) : nearestRank (n * pow2 e) 0 = nearestRank n e := by
  have hshift := nearestRank_shift n e e
  rwa [sub_self] at hshift

section Exact

variable {m : ℤ} {e : ℕ} (hm : m.natAbs < 2 ^ 53) (he : e ≤ 2000)

include hm he

lemma natAbs_roundedPlace_lt : (roundedPlace (m * pow2 e)).natAbs < infRank := by
  rw [natAbs_roundedPlace, Int.natAbs_mul, Int.natAbs_natCast, nearestRank_mul_pow2]
  exact nearestRank_lt hm he

/-- A whole number of at most 53 bits times a moderate power of two keeps its value. -/
lemma valueAt_roundedPlace : valueAt (roundedPlace (m * pow2 e)) = m * pow2 e := by
  have hnat {n : ℕ} (hn : n < 2 ^ 53) :
      valueAt (roundedPlace ((n : ℤ) * pow2 e)) = n * pow2 e := by
    rw [roundedPlace_of_nonneg (by positivity), Int.natAbs_mul, Int.natAbs_natCast,
      Int.natAbs_natCast, nearestRank_mul_pow2, valueAt_natCast, magnitude_nearestRank hn he,
      Nat.cast_mul]
  rcases Int.natAbs_eq m with h | h
  · rw [h]
    exact hnat hm
  · rw [h, neg_mul, roundedPlace_neg, valueAt_neg, hnat hm]

end Exact

/-! ## Sums -/

lemma place_nearest (negative : Bool) (n low : ℕ) :
    (nearest negative n low).place =
      roundedPlace (if negative then -(n * pow2 low) else n * pow2 low) := by
  have hnonneg : (0 : ℤ) ≤ n * pow2 low := by positivity
  have hrank : (nearest negative n low).place =
      position negative (nearestRank (n * pow2 low) 0) := by
    rw [nearestRank_mul_pow2]
    rfl
  rw [hrank]
  cases negative
  · simp [position, roundedPlace_of_nonneg hnonneg, Int.natAbs_mul]
  · simp [position, roundedPlace_neg, roundedPlace_of_nonneg hnonneg, Int.natAbs_mul]

/-- A significand moved to a lower place still stands for the magnitude. -/
lemma significand_mul_pow2 {r low : ℕ} (h : low ≤ shift r) :
    ((significand r * pow2 (shift r - low) : ℕ) : ℤ) * pow2 low = magnitude r := by
  rw [magnitude, ← Nat.cast_mul, Nat.mul_assoc, ← pow2_add, Nat.sub_add_cancel h]

lemma ticks_false (r : ℕ) : ticks false r = magnitude r := rfl

lemma ticks_true (r : ℕ) : ticks true r = -magnitude r := rfl

/-- **A sum is the exact sum, rounded.** -/
lemma place_addFinite (s t : Bool) (r q : ℕ) :
    (addFinite s r t q).place = roundedPlace (ticks s r + ticks t q) := by
  have hr := significand_mul_pow2 (min_le_left (shift r) (shift q))
  have hq := significand_mul_pow2 (min_le_right (shift r) (shift q))
  unfold addFinite
  dsimp only
  generalize min (shift r) (shift q) = low at *
  generalize significand r * pow2 (shift r - low) = a at *
  generalize significand q * pow2 (shift q - low) = b at *
  split_ifs with hst hab hlt
  · subst hst
    rw [place_nearest]
    congr 1
    cases s <;> simp [ticks_false, ticks_true, ← hr, ← hq] <;> ring
  · have hexact : ticks s r + ticks t q = 0 := by
      subst hab
      cases s <;> cases t <;> simp [ticks_false, ticks_true, ← hr, ← hq] at hst ⊢
    simp [hexact, roundedPlace, zero, place, position]
  · rw [place_nearest, Nat.cast_sub hlt.le]
    congr 1
    cases s <;> cases t <;> simp [ticks_false, ticks_true, ← hr, ← hq] at hst ⊢ <;> ring
  · rw [place_nearest, Nat.cast_sub (by omega)]
    congr 1
    cases s <;> cases t <;> simp [ticks_false, ticks_true, ← hr, ← hq] at hst ⊢ <;> ring

section Finite

variable {a b : Binary64}

lemma add_ne_nan (ha : a.IsFinite) (hb : b.IsFinite) : a + b ≠ .nan := by
  rcases a with _ | ⟨s, r, hr⟩
  · exact ha.elim
  rcases b with _ | ⟨t, q, hq⟩
  · exact hb.elim
  change add _ _ ≠ _
  rw [add, if_neg (ne_of_lt ha), if_neg (ne_of_lt hb)]
  unfold addFinite nearest zero
  dsimp only
  split_ifs <;> simp

lemma place_add (ha : a.IsFinite) (hb : b.IsFinite) :
    (a + b).place = roundedPlace (a.value + b.value) := by
  rcases a with _ | ⟨s, r, hr⟩
  · exact ha.elim
  rcases b with _ | ⟨t, q, hq⟩
  · exact hb.elim
  change (add _ _).place = _
  rw [add, if_neg (ne_of_lt ha), if_neg (ne_of_lt hb), place_addFinite, value_num, value_num]

lemma place_neg (a : Binary64) : a.neg.place = -a.place := by
  rcases a with _ | ⟨s, r, hr⟩
  · rfl
  · cases s <;> simp [neg, place, position]

lemma isFinite_neg : a.neg.IsFinite ↔ a.IsFinite := by
  cases a <;> rfl

lemma value_neg (a : Binary64) : a.neg.value = -a.value := by
  rw [value, place_neg, valueAt_neg, value]

lemma sub_ne_nan (ha : a.IsFinite) (hb : b.IsFinite) : a - b ≠ .nan :=
  add_ne_nan ha (isFinite_neg.2 hb)

lemma place_sub (ha : a.IsFinite) (hb : b.IsFinite) :
    (a - b).place = roundedPlace (a.value - b.value) := by
  rw [sub_eq_add_neg, ← value_neg]
  exact place_add ha (isFinite_neg.2 hb)

end Finite

end Binary64
end RegionRules
