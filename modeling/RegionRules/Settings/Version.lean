import RegionRules.Text.Blank

/-!
# Format versions

The content of a match names the version of the format that it was written for,
`major.minor.patch`, where the later numbers may be left out.  The version decides which semantics
the rules get.
-/

set_option autoImplicit false

namespace RegionRules

/-- A format version. -/
structure Version where
  major : UInt32
  minor : UInt32
  patch : UInt32
  deriving DecidableEq

namespace Version

/-! ## Milestones -/

/-- Content with none of the later semantics. -/
def legacy : Version := ⟨1, 0, 0⟩

/-- First version whose rules are walked in one pass over all scopes. -/
def regionPriority : Version := ⟨1, 3, 6⟩

/-- First version that ascribes explosion damage to the player who lit the explosive. -/
def ownedExplosions : Version := ⟨1, 4, 0⟩

/-! ## Order -/

/-- Order of versions, by the first number that differs. -/
def compare (a b : Version) : Ordering :=
  (Ord.compare a.major b.major).then
    ((Ord.compare a.minor b.minor).then (Ord.compare a.patch b.patch))

/-- The version is at least another. -/
def atLeast (a b : Version) : Bool := a.compare b != .lt

/-! ## Text -/

/-- Text of a version. -/
def text (v : Version) : String :=
  toString v.major ++ "." ++ toString v.minor ++ "." ++ toString v.patch

/-- The parts of a text between its points; there is one more part than points. -/
def parts : List Char → List (List Char)
  | [] => [[]]
  | c :: rest =>
    if c = '.' then [] :: parts rest
    else match parts rest with
      | [] => [[c]]
      | part :: others => (c :: part) :: others

/-- Value of decimal digits; none for another character. -/
def digitsValue? : List Char → Option Nat :=
  List.foldl (fun value c =>
    if '0' ≤ c ∧ c ≤ '9' then value.map fun v => v * 10 + (c.toNat - '0'.toNat) else none) (some 0)

/-- A number of a version: decimal digits, at least one, with a value below `2 ^ 32`; a plus sign
may stand before them. -/
def number? (part : List Char) : Option UInt32 :=
  let digits := match part with
    | '+' :: rest => rest
    | rest => rest
  if digits = [] then none
  else match digitsValue? digits with
    | some n => if n < UInt32.size then some (UInt32.ofNat n) else none
    | none => none

/-- The version that a text gives, blanks around it aside. -/
def ofText? (text : String) : Option Version :=
  match (parts (Text.trim text.toList)).mapM number? with
  | some [major] => some ⟨major, 0, 0⟩
  | some [major, minor] => some ⟨major, minor, 0⟩
  | some [major, minor, patch] => some ⟨major, minor, patch⟩
  | _ => none

/-- A text that gives no version, as it was written. -/
structure Invalid where
  text : String
  deriving DecidableEq

/-- The report of an invalid version. -/
def Invalid.message (e : Invalid) : String := "Invalid proto version: " ++ e.text

/-- The version that a text gives, or the text that gives none. -/
def parse (text : String) : Except Invalid Version :=
  match ofText? text with
  | some v => .ok v
  | none => .error ⟨text⟩

end Version

end RegionRules
