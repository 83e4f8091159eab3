import RegionRules.Binary64.Basic

/-!
# Binary64 arithmetic

Sum, difference, product and the conversions to and from block coordinates.  Each operation first
settles NaN and infinity, then computes exactly and rounds once.
-/

set_option autoImplicit false

namespace RegionRules
namespace Binary64

/-- The number with its sign turned. -/
def neg : Binary64 → Binary64
  | .nan => .nan
  | .num negative rank h => .num (!negative) rank h

/-- Sum of finite numbers given by signs and ranks.  The significands are brought to the same place;
an exact zero is negative only if both terms are. -/
def addFinite (s : Bool) (r : Nat) (t : Bool) (q : Nat) : Binary64 :=
  let low := min (shift r) (shift q)
  let a := significand r * pow2 (shift r - low)
  let b := significand q * pow2 (shift q - low)
  if s = t then nearest s (a + b) low
  else if a = b then zero false
  else if b < a then nearest s (a - b) low
  else nearest t (b - a) low

/-- Sum.  Opposite infinities have none. -/
def add : Binary64 → Binary64 → Binary64
  | .num s r hr, .num t q hq =>
    if r = infRank then
      if q = infRank ∧ s ≠ t then .nan else .num s r hr
    else if q = infRank then .num t q hq
    else addFinite s r t q
  | _, _ => .nan

/-- Difference. -/
def sub (a b : Binary64) : Binary64 :=
  add a b.neg

/-- Product.  An infinity times zero has none; the result is negative if the signs differ. -/
def mul : Binary64 → Binary64 → Binary64
  | .num s r _, .num t q _ =>
    if r = infRank ∨ q = infRank then
      if r = 0 ∨ q = 0 then .nan else infinity (s != t)
    else nearest (s != t) (significand r * significand q) (shift r + shift q - unitScale)
  | _, _ => .nan

instance : Add Binary64 := ⟨add⟩
instance : Sub Binary64 := ⟨sub⟩
instance : Mul Binary64 := ⟨mul⟩
instance : Neg Binary64 := ⟨neg⟩

/-! ## Block coordinates

A block coordinate is a 32-bit integer.  Numbers outside the range go to its nearer end. -/

/-- Signed value in ticks of a finite number given by sign and rank. -/
def ticks (negative : Bool) (rank : Nat) : Int :=
  if negative then -(magnitude rank : Int) else magnitude rank

/-- Number of ticks in one. -/
def unit : Nat := Nat.pow 2 unitScale

/-- The block coordinate at an infinity. -/
def farCoordinate (negative : Bool) : Int32 :=
  if negative then Int32.minValue else Int32.maxValue

/-- Largest block coordinate not above the number, or the nearer end of the range; zero for NaN. -/
def floorCoordinate : Binary64 → Int32
  | .nan => 0
  | .num negative rank _ =>
    if rank = infRank then farCoordinate negative
    else Int32.ofIntClamp (ticks negative rank / unit)

/-- Smallest block coordinate not below the number, or the nearer end of the range; zero for
NaN. -/
def ceilCoordinate : Binary64 → Int32
  | .nan => 0
  | .num negative rank _ =>
    if rank = infRank then farCoordinate negative
    else Int32.ofIntClamp (-(-ticks negative rank / unit))

/-- The number at a block coordinate. -/
def ofCoordinate (c : Int32) : Binary64 :=
  ofInt c.toInt

end Binary64
end RegionRules
