/-!
# Binary64 numbers

World coordinates are IEEE 754 binary64 numbers.  This module represents them exactly, by their
place in the order of magnitudes, so that comparing two of them is comparing two integers and
rounding is a statement about natural numbers.

## Ranks

The non-negative binary64 numbers form one ascending list: zero, the multiples of `2 ^ -1074` up to
the first power of two of full precision, then `2 ^ 52` numbers per binade, and infinity at the
end.  A magnitude is its place in that list, its *rank*.  The rank is also the number's 63-bit
interchange code, so the encoding of a number is its rank with the sign bit in front.

`magnitude` gives the value of a rank as a whole number of *ticks* of `2 ^ -1074`, the finest
spacing there is.  `nearestRank` goes back, from a whole number and a power of two to the nearest
rank, in a tie to the even one.  Every arithmetic operation is exact up to one use of `nearestRank`.

## What is left out

There is one NaN: payloads and the quiet bit are not represented, since no answer depends on them.
-/

set_option autoImplicit false

namespace RegionRules

/-- Number of ranks in a binade. -/
@[noinline] def Binary64.binade : Nat := 0x10000000000000

/-- Rank of the infinite magnitude, one above the rank of the largest finite number. -/
@[noinline] def Binary64.infRank : Nat := 0x7ff0000000000000

/-- A binary64 number: not a number, or a sign and the rank of a magnitude. -/
inductive Binary64 where
  | nan
  | num (negative : Bool) (rank : Nat) (rank_le : rank ≤ Binary64.infRank)
  deriving DecidableEq

namespace Binary64

instance : Inhabited Binary64 := ⟨.num false 0 (Nat.zero_le _)⟩

/-! ## Powers of two -/

/-- The powers of two that arithmetic needs most. -/
def smallPowers : Array Nat := (Array.range 64).map (Nat.pow 2)

/-- `2 ^ k`, looked up if it is small. -/
def pow2 (k : Nat) : Nat :=
  if h : k < smallPowers.size then smallPowers[k] else Nat.pow 2 k

theorem pow2_eq (k : Nat) : pow2 k = Nat.pow 2 k := by
  unfold pow2
  split
  · simp [smallPowers]
  · rfl

/-! ## Magnitudes and rounding -/

/-- Significand of a rank: in the lowest binade the rank itself, above a number of 53 bits. -/
def significand (rank : Nat) : Nat :=
  if rank < binade then rank else binade + rank % binade

/-- Place of the significand's last bit above the finest spacing.  The numbers of a binade are twice
as far apart as those of the one before. -/
def shift (rank : Nat) : Nat := rank / binade - 1

/-- Value of a rank in ticks of `2 ^ -1074`. -/
def magnitude (rank : Nat) : Nat := significand rank * pow2 (shift rank)

/-- `n / d` rounded to the nearest whole number, a half going to the even neighbour. -/
def roundHalfEven (n d : Nat) : Nat :=
  let q := n / d
  let twice := 2 * (n % d)
  if twice < d then q else if d < twice then q + 1 else q + q % 2

/-- Rank nearest to `n * 2 ^ scale` ticks, the even one in a tie; beyond the largest finite number
by half a step or more, the rank of infinity.  The `k` low bits of `n` are rounded off, as many as
leave 53, or for a small result as many as lie below one tick; a negative `k` appends zeros. -/
def nearestRank (n : Nat) (scale : Int) : Nat :=
  if n = 0 then 0
  else
    let k := max ((n.log2 : Int) - 52) (-scale)
    let rounded := if k ≤ 0 then n * pow2 (-k).toNat else roundHalfEven n (pow2 k.toNat)
    min infRank ((scale + k).toNat * binade + rounded)

theorem nearestRank_le (n : Nat) (scale : Int) : nearestRank n scale ≤ infRank := by
  unfold nearestRank
  split
  · exact Nat.zero_le _
  · exact Nat.min_le_left ..

/-- The number nearest to `n * 2 ^ scale` ticks, with the given sign. -/
def nearest (negative : Bool) (n : Nat) (scale : Int) : Binary64 :=
  .num negative (nearestRank n scale) (nearestRank_le n scale)

/-- There are `2 ^ 1074` ticks in one. -/
def unitScale : Nat := 1074

/-- The number nearest to an integer; zero is positive. -/
def ofInt (i : Int) : Binary64 := nearest (decide (i < 0)) i.natAbs unitScale

/-! ## Constants -/

/-- Zero with the given sign. -/
def zero (negative : Bool) : Binary64 := .num negative 0 (Nat.zero_le _)

/-- Infinity with the given sign. -/
def infinity (negative : Bool) : Binary64 := .num negative infRank (Nat.le_refl _)

/-- One. -/
def one : Binary64 := .num false 0x3ff0000000000000 (by decide)

/-- One half. -/
def half : Binary64 := .num false 0x3fe0000000000000 (by decide)

/-! ## Order

Both zeros stand at position zero, so they compare equal.  Nothing compares with NaN. -/

/-- Signed place of a number: its rank, counted downwards for a negative number. -/
def position (negative : Bool) (rank : Nat) : Int :=
  if negative then -rank else rank

/-- Strict order of numbers, that of their positions. -/
def lt : Binary64 → Binary64 → Bool
  | .num false r _, .num false q _ => r < q
  | .num true r _, .num true q _ => q < r
  | .num true r _, .num false q _ => 0 < r + q
  | _, _ => false

/-- Order of numbers, that of their positions. -/
def le : Binary64 → Binary64 → Bool
  | .num false r _, .num false q _ => r ≤ q
  | .num true r _, .num true q _ => q ≤ r
  | .num true _ _, .num false _ _ => true
  | .num false r _, .num true q _ => r + q == 0
  | _, _ => false

/-- Numerical equality: the zeros are equal, and NaN differs from itself. -/
def same : Binary64 → Binary64 → Bool
  | .num s r _, .num t q _ => if s = t then r == q else r + q == 0
  | _, _ => false

theorem lt_num (s t : Bool) (r q : Nat) (hr : r ≤ infRank) (hq : q ≤ infRank) :
    (num s r hr).lt (num t q hq) = decide (position s r < position t q) := by
  rw [Bool.eq_iff_iff, decide_eq_true_iff]
  cases s <;> cases t <;>
    simp only [lt, position, decide_eq_true_iff, Bool.false_eq_true, if_true, if_false,
      false_iff] <;> omega

theorem le_num (s t : Bool) (r q : Nat) (hr : r ≤ infRank) (hq : q ≤ infRank) :
    (num s r hr).le (num t q hq) = decide (position s r ≤ position t q) := by
  rw [Bool.eq_iff_iff, decide_eq_true_iff]
  cases s <;> cases t <;>
    simp only [le, position, decide_eq_true_iff, beq_iff_eq, Bool.false_eq_true, if_true,
      if_false, true_iff] <;> omega

theorem same_num (s t : Bool) (r q : Nat) (hr : r ≤ infRank) (hq : q ≤ infRank) :
    (num s r hr).same (num t q hq) = decide (position s r = position t q) := by
  rw [Bool.eq_iff_iff, decide_eq_true_iff]
  cases s <;> cases t <;>
    simp only [same, position, reduceCtorEq, beq_iff_eq, Bool.false_eq_true, if_true,
      if_false] <;> omega

instance : LT Binary64 := ⟨fun a b => a.lt b = true⟩
instance : LE Binary64 := ⟨fun a b => a.le b = true⟩
instance (a b : Binary64) : Decidable (a < b) := inferInstanceAs (Decidable (a.lt b = true))
instance (a b : Binary64) : Decidable (a ≤ b) := inferInstanceAs (Decidable (a.le b = true))

/-- The lesser of two numbers; the second if they do not compare or are equal. -/
def lesser (a b : Binary64) : Binary64 :=
  if a < b then a else b

/-- The greater of two numbers; the second if they do not compare or are equal. -/
def greater (a b : Binary64) : Binary64 :=
  if b < a then a else b

/-! ## Encoding -/

/-- The top bit of a code, which tells the sign. -/
@[noinline] def signBit : Nat := 0x8000000000000000

/-- The 64-bit interchange code of a number; NaN has none of its own. -/
def code? : Binary64 → Option Nat
  | .nan => none
  | .num negative rank _ => some (if negative then signBit + rank else rank)

end Binary64

end RegionRules
