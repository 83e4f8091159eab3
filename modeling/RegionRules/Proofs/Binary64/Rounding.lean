import Mathlib
import RegionRules.Binary64.Arithmetic

/-!
# Rounding is monotone

`Binary64.nearestRank` rounds a whole number of scaled ticks to a rank.  What follows uses three
facts about it:

* `nearestRank_shift`: the result depends on the rounded value alone, not on how the value is
  split into a number and a power of two;
* `nearestRank_mono`: a greater value is rounded to a rank that is no less;
* `magnitude_nearestRank`: a value of few enough bits is kept.

The helper definitions `dropped` and `kept` name the two quantities that the rounding computes,
the number of low bits it takes off and the significand that is left.
-/

set_option autoImplicit false

namespace RegionRules
namespace Binary64

/-! ## Powers of two -/

lemma pow2_eq_pow (k : ℕ) : pow2 k = 2 ^ k := pow2_eq k

lemma pow2_pos (k : ℕ) : 0 < pow2 k := by
  rw [pow2_eq_pow]
  positivity

lemma pow2_zero : pow2 0 = 1 := by
  rw [pow2_eq_pow, pow_zero]

lemma pow2_add (j k : ℕ) : pow2 (j + k) = pow2 j * pow2 k := by
  simp only [pow2_eq_pow, pow_add]

lemma binade_eq : binade = 2 ^ 52 := by
  norm_num [binade]

lemma binade_pos : 0 < binade := by
  rw [binade_eq]
  positivity

lemma infRank_eq : infRank = 2047 * binade := by
  norm_num [infRank, binade]

/-! ## Rounding a quotient -/

lemma roundHalfEven_mul_right (n d : ℕ) {c : ℕ} (hc : 0 < c) :
    roundHalfEven (n * c) (d * c) = roundHalfEven n d := by
  have hmod : 2 * (n * c % (d * c)) = 2 * (n % d) * c := by
    rw [Nat.mul_mod_mul_right, Nat.mul_assoc]
  have hdiv : n * c / (d * c) = n / d := Nat.mul_div_mul_right _ _ hc
  simp only [roundHalfEven, hmod, hdiv, Nat.mul_lt_mul_right hc]

lemma roundHalfEven_exact (n : ℕ) {d : ℕ} (hd : 0 < d) : roundHalfEven (n * d) d = n := by
  simp [roundHalfEven, hd]

/-- The result is one of the two whole numbers around the quotient. -/
lemma roundHalfEven_bounds (n d : ℕ) :
    n / d ≤ roundHalfEven n d ∧ roundHalfEven n d ≤ n / d + 1 := by
  have hparity : n / d % 2 < 2 := Nat.mod_lt _ two_pos
  simp only [roundHalfEven]
  split_ifs <;> omega

lemma roundHalfEven_mono {n m : ℕ} (d : ℕ) (h : n ≤ m) :
    roundHalfEven n d ≤ roundHalfEven m d := by
  have hdiv : n / d ≤ m / d := Nat.div_le_div_right h
  rcases hdiv.lt_or_eq with hlt | heq
  · calc
      roundHalfEven n d ≤ n / d + 1 := (roundHalfEven_bounds n d).2
      _ ≤ m / d := hlt
      _ ≤ roundHalfEven m d := (roundHalfEven_bounds m d).1
  · -- Equal quotients: the remainders are ordered, and the tie goes the same way for both.
    have hn := Nat.div_add_mod n d
    have hm := Nat.div_add_mod m d
    have hrem : n % d ≤ m % d := by rw [heq] at hn; omega
    have hparity : m / d % 2 < 2 := Nat.mod_lt _ two_pos
    simp only [roundHalfEven, heq]
    split_ifs <;> omega

/-! ## Ranks as significands and shifts -/

lemma shift_mul_binade_add_significand (r : ℕ) : shift r * binade + significand r = r := by
  unfold shift significand
  split_ifs with h
  · rw [Nat.div_eq_of_lt h]
    omega
  · have hdiv : 1 ≤ r / binade := (Nat.one_le_div_iff binade_pos).2 (not_lt.1 h)
    have hsplit := Nat.div_add_mod' r binade
    have hone : (r / binade - 1) * binade + binade = r / binade * binade := by
      rw [← Nat.succ_mul, Nat.succ_eq_add_one, Nat.sub_add_cancel hdiv]
    omega

lemma significand_lt (r : ℕ) : significand r < 2 * binade := by
  have hmod : r % binade < binade := Nat.mod_lt _ binade_pos
  unfold significand
  split_ifs <;> omega

lemma shift_eq_zero_or_le_significand (r : ℕ) : shift r = 0 ∨ binade ≤ significand r := by
  unfold shift significand
  split_ifs with h
  · exact .inl (by rw [Nat.div_eq_of_lt h])
  · exact .inr (Nat.le_add_right _ _)

/-- The rank with a given shift and significand has their product as its value.  The bound is not
strict: a significand of `2 * binade` is the first one of the next binade. -/
lemma magnitude_compose {e m : ℕ} (hm : m ≤ 2 * binade) (he : e = 0 ∨ binade ≤ m) :
    magnitude (e * binade + m) = m * pow2 e := by
  have hb := binade_pos
  rcases lt_or_ge m binade with hlow | hhigh
  · -- Only the lowest binade holds small significands.
    have he0 : e = 0 := he.resolve_right (not_le.2 hlow)
    subst he0
    simp [magnitude, significand, shift, hlow, Nat.div_eq_of_lt hlow, pow2_zero]
  obtain ⟨t, rfl⟩ := Nat.exists_eq_add_of_le hhigh
  have hrank : e * binade + (binade + t) = t + (e + 1) * binade := by ring
  have hge : ¬ t + (e + 1) * binade < binade := by
    rw [Nat.succ_mul]
    omega
  rcases (show t ≤ binade by omega).lt_or_eq with ht | rfl
  · have hdiv : (t + (e + 1) * binade) / binade = e + 1 := by
      rw [Nat.add_mul_div_right _ _ hb, Nat.div_eq_of_lt ht, Nat.zero_add]
    have hmod : (t + (e + 1) * binade) % binade = t := by
      rw [Nat.add_mul_mod_self_right, Nat.mod_eq_of_lt ht]
    simp [magnitude, significand, shift, hrank, hge, hdiv, hmod]
  · have hnext : binade + (e + 1) * binade = 0 + (e + 2) * binade := by ring
    have hdiv : (0 + (e + 2) * binade) / binade = e + 2 := by
      rw [Nat.add_mul_div_right _ _ hb, Nat.zero_div, Nat.zero_add]
    have hmod : (0 + (e + 2) * binade) % binade = 0 := by
      rw [Nat.add_mul_mod_self_right, Nat.zero_mod]
    rw [hrank, hnext]
    rw [hnext] at hge
    simp only [magnitude, significand, shift, if_neg hge, hdiv, hmod, Nat.add_zero]
    rw [show e + 2 - 1 = e + 1 by omega, pow2_add, show pow2 1 = 2 by rw [pow2_eq_pow, pow_one]]
    ring

lemma magnitude_succ (r : ℕ) : magnitude (r + 1) = magnitude r + pow2 (shift r) := by
  have hrank : r + 1 = shift r * binade + (significand r + 1) := by
    rw [← Nat.add_assoc, shift_mul_binade_add_significand]
  have hle : significand r + 1 ≤ 2 * binade := significand_lt r
  have hshift := (shift_eq_zero_or_le_significand r).imp_right Nat.le_succ_of_le
  conv_lhs => rw [hrank, magnitude_compose hle hshift]
  rw [magnitude]
  ring

lemma magnitude_strictMono : StrictMono magnitude := by
  refine strictMono_nat_of_lt_succ fun r => ?_
  rw [magnitude_succ]
  exact Nat.lt_add_of_pos_right (pow2_pos _)

/-! ## Rounding to a rank -/

/-- Number of low bits of `n` that rounding `n * 2 ^ scale` takes off, negative if it appends
zeros instead. -/
def dropped (n : ℕ) (scale : ℤ) : ℤ := max ((n.log2 : ℤ) - 52) (-scale)

/-- The significand that rounding `n` by `k` bits leaves. -/
def kept (n : ℕ) (k : ℤ) : ℕ :=
  if k ≤ 0 then n * pow2 (-k).toNat else roundHalfEven n (pow2 k.toNat)

/-- The rank that rounding would give if there were no infinity. -/
def unboundedRank (n : ℕ) (scale : ℤ) : ℕ :=
  (scale + dropped n scale).toNat * binade + kept n (dropped n scale)

lemma nearestRank_eq (n : ℕ) (scale : ℤ) :
    nearestRank n scale = if n = 0 then 0 else min infRank (unboundedRank n scale) := rfl

lemma kept_of_nonpos (n : ℕ) {k : ℤ} (hk : k ≤ 0) : kept n k = n * pow2 (-k).toNat := if_pos hk

lemma kept_mono {n m : ℕ} (k : ℤ) (h : n ≤ m) : kept n k ≤ kept m k := by
  unfold kept
  split_ifs
  · exact Nat.mul_le_mul_right _ h
  · exact roundHalfEven_mono _ h

/-- Appended zeros and taken bits act as one shift. -/
lemma kept_shift (n j : ℕ) (k : ℤ) : kept (n * pow2 j) (k + j) = kept n k := by
  unfold kept
  split_ifs with h h' h'
  · rw [Nat.mul_assoc, ← pow2_add, show j + (-(k + j)).toNat = (-k).toNat by omega]
  · omega
  · rw [show j = (-k).toNat + (k + j).toNat by omega, pow2_add, ← Nat.mul_assoc,
      show (k + ↑((-k).toNat + (k + j).toNat)).toNat = (k + j).toNat by omega]
    exact roundHalfEven_exact _ (pow2_pos _)
  · rw [show (k + j).toNat = k.toNat + j by omega, pow2_add]
    exact roundHalfEven_mul_right _ _ (pow2_pos _)

lemma kept_le_of_le {n m : ℕ} {k : ℤ} (h : n * pow2 (-k).toNat ≤ m * pow2 k.toNat) :
    kept n k ≤ m := by
  unfold kept
  split_ifs with hk
  · rwa [show k.toNat = 0 by omega, pow2_zero, Nat.mul_one] at h
  · rw [show (-k).toNat = 0 by omega, pow2_zero, Nat.mul_one] at h
    calc
      roundHalfEven n (pow2 k.toNat) ≤ roundHalfEven (m * pow2 k.toNat) (pow2 k.toNat) :=
        roundHalfEven_mono _ h
      _ = m := roundHalfEven_exact m (pow2_pos _)

lemma le_kept_of_le {n m : ℕ} {k : ℤ} (h : m * pow2 k.toNat ≤ n * pow2 (-k).toNat) :
    m ≤ kept n k := by
  unfold kept
  split_ifs with hk
  · rwa [show k.toNat = 0 by omega, pow2_zero, Nat.mul_one] at h
  · rw [show (-k).toNat = 0 by omega, pow2_zero, Nat.mul_one] at h
    calc
      m = roundHalfEven (m * pow2 k.toNat) (pow2 k.toNat) :=
        (roundHalfEven_exact m (pow2_pos _)).symm
      _ ≤ roundHalfEven n (pow2 k.toNat) := roundHalfEven_mono _ h

lemma pow2_mono {j k : ℕ} (h : j ≤ k) : pow2 j ≤ pow2 k := by
  simp only [pow2_eq_pow]
  exact Nat.pow_le_pow_right two_pos h

/-- Enough bits are taken off for the rest to fit the significand. -/
lemma kept_le {n : ℕ} {k : ℤ} (hk : (n.log2 : ℤ) - 52 ≤ k) : kept n k ≤ 2 * binade := by
  refine kept_le_of_le ?_
  have hn : n ≤ pow2 (n.log2 + 1) := by
    rw [pow2_eq_pow]
    exact Nat.lt_log2_self.le
  calc
    n * pow2 (-k).toNat ≤ pow2 (n.log2 + 1) * pow2 (-k).toNat := Nat.mul_le_mul_right _ hn
    _ = pow2 (n.log2 + 1 + (-k).toNat) := (pow2_add _ _).symm
    _ ≤ pow2 (53 + k.toNat) := pow2_mono (by omega)
    _ = 2 * binade * pow2 k.toNat := by
      rw [pow2_add, pow2_eq_pow 53, binade_eq, ← pow_succ']

/-- No more bits are taken off than leave a full significand. -/
lemma le_kept {n : ℕ} (hn : n ≠ 0) {k : ℤ} (hk : k ≤ (n.log2 : ℤ) - 52) :
    binade ≤ kept n k := by
  refine le_kept_of_le ?_
  have hlog : pow2 n.log2 ≤ n := by
    rw [pow2_eq_pow]
    exact Nat.log2_self_le hn
  calc
    binade * pow2 k.toNat = pow2 (52 + k.toNat) := by
      rw [pow2_add, pow2_eq_pow 52, binade_eq]
    _ ≤ pow2 (n.log2 + (-k).toNat) := pow2_mono (by omega)
    _ = pow2 n.log2 * pow2 (-k).toNat := pow2_add _ _
    _ ≤ n * pow2 (-k).toNat := Nat.mul_le_mul_right _ hlog

lemma log2_mono {n m : ℕ} (h : n ≤ m) : n.log2 ≤ m.log2 := by
  rcases Nat.eq_zero_or_pos n with rfl | hn
  · simp
  · exact (Nat.le_log2 (by omega)).2 ((Nat.log2_self_le hn.ne').trans h)

lemma unboundedRank_mono {n m : ℕ} (scale : ℤ) (hn : n ≠ 0) (h : n ≤ m) :
    unboundedRank n scale ≤ unboundedRank m scale := by
  have hlog := log2_mono h
  have hb := binade_pos
  unfold unboundedRank
  rcases (show dropped n scale ≤ dropped m scale by unfold dropped; omega).lt_or_eq
    with hlt | heq
  · -- The greater number loses more bits, so it ends up in a higher binade.
    have hm : dropped m scale ≤ (m.log2 : ℤ) - 52 := by unfold dropped at hlt ⊢; omega
    have hkept_n : kept n (dropped n scale) ≤ 2 * binade := kept_le (le_max_left _ _)
    have hkept_m : binade ≤ kept m (dropped m scale) := le_kept (by omega) hm
    have hshift : (scale + dropped n scale).toNat + 1 ≤ (scale + dropped m scale).toNat := by
      unfold dropped at hlt ⊢
      omega
    have hmul := Nat.mul_le_mul_right binade hshift
    rw [Nat.succ_mul] at hmul
    omega
  · rw [heq]
    exact Nat.add_le_add_left (kept_mono _ h) _

/-- **Rounding is monotone.** -/
lemma nearestRank_mono {n m : ℕ} (scale : ℤ) (h : n ≤ m) :
    nearestRank n scale ≤ nearestRank m scale := by
  simp only [nearestRank_eq]
  split_ifs with hn hm
  · exact le_rfl
  · exact Nat.zero_le _
  · omega
  · exact min_le_min_left _ (unboundedRank_mono scale hn h)

/-- **Rounding depends on the value alone.** -/
lemma nearestRank_shift (n j : ℕ) (scale : ℤ) :
    nearestRank (n * pow2 j) (scale - j) = nearestRank n scale := by
  have hj := pow2_pos j
  simp only [nearestRank_eq, Nat.mul_eq_zero, hj.ne', or_false]
  split_ifs with hn
  · rfl
  have hlog : (n * pow2 j).log2 = n.log2 + j := by
    have hlow := Nat.log2_self_le hn
    have hhigh := Nat.lt_log2_self (n := n)
    rw [Nat.log2_eq_iff (by positivity), pow2_eq_pow]
    constructor
    · rw [pow_add]
      exact Nat.mul_le_mul_right _ hlow
    · rw [show n.log2 + j + 1 = n.log2 + 1 + j by omega, pow_add]
      exact Nat.mul_lt_mul_of_pos_right hhigh (by positivity)
  have hdropped : dropped (n * pow2 j) (scale - j) = dropped n scale + j := by
    unfold dropped
    rw [hlog]
    omega
  rw [unboundedRank, unboundedRank, hdropped, kept_shift]
  congr 3
  omega

/-! ## Exact values -/

section Exact

variable {n scale : ℕ} (hn : n < 2 ^ 53) (hscale : scale ≤ 2000)

include hn

lemma dropped_nonpos : dropped n scale ≤ 0 := by
  have hlog : n.log2 ≤ 52 := by
    rcases Nat.eq_zero_or_pos n with rfl | h
    · simp
    · exact Nat.lt_succ_iff.1 ((Nat.log2_lt h.ne').2 hn)
  unfold dropped
  omega

include hscale

lemma unboundedRank_lt : unboundedRank n scale < infRank := by
  have hk : dropped n scale ≤ 0 := dropped_nonpos hn
  have hle : kept n (dropped n scale) ≤ 2 * binade := kept_le (le_max_left _ _)
  have hmul := Nat.mul_le_mul_right binade (show (scale + dropped n scale).toNat ≤ 2000 by omega)
  have hb := binade_pos
  unfold unboundedRank
  rw [infRank_eq]
  omega

lemma nearestRank_lt : nearestRank n scale < infRank := by
  rw [nearestRank_eq]
  split_ifs
  · rw [infRank_eq]
    exact Nat.mul_pos (by norm_num) binade_pos
  · exact min_lt_of_right_lt (unboundedRank_lt hn hscale)

/-- Rounding a number of at most 53 bits at a moderate scale is exact. -/
lemma magnitude_nearestRank : magnitude (nearestRank n scale) = n * pow2 scale := by
  rw [nearestRank_eq]
  split_ifs with h0
  · simp [h0, magnitude, significand, binade_pos]
  have hk : dropped n scale ≤ 0 := dropped_nonpos hn
  have hle : kept n (dropped n scale) ≤ 2 * binade := kept_le (le_max_left _ _)
  have hshift : (scale + dropped n scale).toNat = 0 ∨ binade ≤ kept n (dropped n scale) := by
    rcases le_total ((n.log2 : ℤ) - 52) (-scale) with h | h
    · exact .inl (by unfold dropped; omega)
    · exact .inr (le_kept h0 (by unfold dropped; omega))
  rw [min_eq_right (unboundedRank_lt hn hscale).le, unboundedRank, magnitude_compose hle hshift,
    kept_of_nonpos _ hk, Nat.mul_assoc, ← pow2_add]
  congr 2
  unfold dropped at hk ⊢
  omega

end Exact

end Binary64
end RegionRules
