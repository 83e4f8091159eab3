import RegionRules.Binary64.Arithmetic

/-!
# Decimal forms of binary64 numbers

Reading: the binary64 number nearest to a decimal.  Writing: the shortest decimal that reads back,
and its text.  Both are computed in exact integer arithmetic.

The shortest decimal of a number is the point of the coarsest decimal grid that meets the interval
of values rounding to that number.  Of two points on that grid the nearer one is taken, and of two
equally near ones the greater.
-/

set_option autoImplicit false

namespace RegionRules

/-- The decimal number `digits * 10 ^ exponent`. -/
structure Decimal where
  digits : Nat
  exponent : Int
  deriving DecidableEq, Repr

namespace Decimal

/-- Ten to a power. -/
def pow10 (k : Nat) : Nat := Nat.pow 10 k

/-! ## Reading -/

/-- Exponent beyond which a decimal with at least one digit is out of range on either side. -/
def farExponent : Nat := 400

/-- The binary64 number nearest to the fraction `n / d` of ticks, with the given sign.  The
quotient is taken to at least 55 bits; a last bit that is set stands for a remainder, which is all
that rounding needs to know of it. -/
def nearestQuotient (negative : Bool) (n d : Nat) : Binary64 :=
  let places := 56 + d.log2 - n.log2
  let q := n <<< places / d
  let sticky := if n <<< places % d = 0 then 0 else 1
  .nearest negative (2 * q + sticky) (-(places + 1 : Nat))

/-- The binary64 number nearest to a decimal, with the given sign.  The two middle cases are decided
by the size of the exponent alone, which keeps the powers of ten small. -/
def toBinary64 (negative : Bool) (d : Decimal) : Binary64 :=
  if d.digits = 0 then .zero negative
  else if (farExponent : Int) < d.exponent then .infinity negative
  else if d.exponent < -((farExponent + d.digits.log2 + 1 : Nat) : Int) then .zero negative
  else nearestQuotient negative (d.digits * pow10 d.exponent.toNat * Binary64.unit)
    (pow10 (-d.exponent).toNat)

/-! ## The shortest decimal -/

/-- Coarsest grid point between the midpoints to the neighbouring magnitudes, looking for it from
the grid of spacing `10 ^ g` downwards, on at most `grids` grids.  All of `lower`, `value` and
`upper` are in half ticks; the midpoints themselves count if `closed`. -/
def shortestFrom (lower value upper : Nat) (closed : Bool) : Nat → Int → Decimal
  | 0, g => ⟨value * pow10 (-g).toNat / (2 * Binary64.unit * pow10 g.toNat), g⟩
  | grids + 1, g =>
    let scale := pow10 (-g).toNat
    let spacing := 2 * Binary64.unit * pow10 g.toNat
    let n := value * scale / spacing
    let below := n * spacing
    let above := below + spacing
    let hitsBelow := if closed then lower * scale ≤ below else lower * scale < below
    let hitsAbove := if closed then above ≤ upper * scale else above < upper * scale
    if hitsBelow ∧ (¬ hitsAbove ∨ value * scale - below < above - value * scale) then ⟨n, g⟩
    else if hitsAbove then ⟨n + 1, g⟩
    else shortestFrom lower value upper closed grids (g - 1)

/-- Shortest decimal that reads back as the finite non-zero magnitude of the given rank.  The search
starts on a grid coarser than the number itself; seventeen digits always suffice. -/
def shortest (rank : Nat) : Decimal :=
  let value := 2 * Binary64.magnitude rank
  let lower := Binary64.magnitude (rank - 1) + Binary64.magnitude rank
  let upper := Binary64.magnitude rank + Binary64.magnitude (rank + 1)
  let start := ((value.log2 : Int) - 1075) * 30103 / 100000 + 2
  shortestFrom lower value upper (rank % 2 == 0) 25 start

/-! ## Text -/

/-- Exponent of the leading digit. -/
def leadingExponent (d : Decimal) : Int :=
  d.exponent + (toString d.digits).length - 1

/-- Positional text, with a point and at least one digit on either side of it. -/
def positional (d : Decimal) : String :=
  let text := toString d.digits
  if 0 ≤ d.exponent then text ++ "".pushn '0' d.exponent.toNat ++ ".0"
  else
    let places := (-d.exponent).toNat
    if places < text.length then
      String.ofList (text.toList.take (text.length - places)) ++ "." ++
        String.ofList (text.toList.drop (text.length - places))
    else "0." ++ "".pushn '0' (places - text.length) ++ text

/-- Text with one digit before the point and a power of ten; no point if no digit follows it. -/
def scientific (d : Decimal) : String :=
  let tail := match (toString d.digits).toList with
    | [] => ""
    | [c] => c.toString
    | c :: rest => c.toString ++ "." ++ String.ofList rest
  tail ++ "e" ++ toString d.leadingExponent

/-- Numbers with leading exponents from -4 to 15 are written positionally. -/
def text (d : Decimal) : String :=
  if -4 ≤ d.leadingExponent ∧ d.leadingExponent < 16 then d.positional else d.scientific

end Decimal

/-- Text of a number: its shortest decimal, a sign also before a negative zero, and words for the
rest. -/
def Binary64.text : Binary64 → String
  | .nan => "NaN"
  | .num negative rank _ =>
    let sign := if negative then "-" else ""
    if rank = 0 then sign ++ "0.0"
    else if rank = infRank then sign ++ "inf"
    else sign ++ (Decimal.shortest rank).text

end RegionRules
