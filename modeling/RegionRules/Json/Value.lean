import RegionRules.Binary64.Decimal

/-!
# JSON texts

A reader for JSON texts.  It keeps apart what a decoder may have to tell apart: the sign and form
of a number, the order and repetition of the members of an object, and strings whose escapes name
half of a surrogate pair, which have no text.
-/

set_option autoImplicit false

namespace RegionRules

/-- A number as it is written. -/
structure JsonNumber where
  negative : Bool
  decimal : Decimal
  /-- The number has neither fraction nor exponent. -/
  isInteger : Bool
  deriving DecidableEq

/-- A JSON value. -/
inductive JsonValue where
  | null
  | bool (b : Bool)
  | number (n : JsonNumber)
  /-- A string; without text if its escapes do not name characters. -/
  | string (text : Option String)
  | array (elements : List JsonValue)
  | object (members : List (Option String × JsonValue))

namespace JsonValue

/-! ## Characters and numbers -/

/-- The text without blanks at its start. -/
def skipBlank (s : List Char) : List Char :=
  s.dropWhile fun c => c == ' ' || c == '\t' || c == '\n' || c == '\r'

/-- Value of a hexadecimal digit. -/
def hexDigit? (c : Char) : Option Nat :=
  if '0' ≤ c ∧ c ≤ '9' then some (c.toNat - '0'.toNat)
  else if 'a' ≤ c ∧ c ≤ 'f' then some (c.toNat - 'a'.toNat + 10)
  else if 'A' ≤ c ∧ c ≤ 'F' then some (c.toNat - 'A'.toNat + 10)
  else none

/-- Value of four hexadecimal digits. -/
def hexCode? (a b c d : Char) : Option Nat := do
  return (((← hexDigit? a) * 16 + (← hexDigit? b)) * 16 + (← hexDigit? c)) * 16 + (← hexDigit? d)

/-- The character that an escape of one letter names. -/
def escapedChar? : Char → Option Char
  | '"' => some '"'
  | '\\' => some '\\'
  | '/' => some '/'
  | 'b' => some '\x08'
  | 'f' => some '\x0c'
  | 'n' => some '\n'
  | 'r' => some '\r'
  | 't' => some '\t'
  | _ => none

/-- Codes of a string up to its closing quote, and the rest of the text. -/
def codes : List Char → Option (List Nat × List Char)
  | [] => none
  | '"' :: rest => some ([], rest)
  | '\\' :: 'u' :: a :: b :: c :: d :: rest =>
    match hexCode? a b c d, codes rest with
    | some code, some (others, rest) => some (code :: others, rest)
    | _, _ => none
  | '\\' :: c :: rest =>
    match escapedChar? c, codes rest with
    | some c, some (others, rest) => some (c.toNat :: others, rest)
    | _, _ => none
  | c :: rest =>
    if c < ' ' then none
    else match codes rest with
      | some (others, rest) => some (c.toNat :: others, rest)
      | none => none

/-- The code is the first half of a surrogate pair. -/
def isHighHalf (n : Nat) : Bool := 0xd800 ≤ n && n < 0xdc00

/-- The code is the second half of a surrogate pair. -/
def isLowHalf (n : Nat) : Bool := 0xdc00 ≤ n && n < 0xe000

/-- The characters that codes name, two halves of a pair together. -/
def charsOfCodes? : List Nat → Option (List Char)
  | [] => some []
  | [n] => if isHighHalf n || isLowHalf n then none else some [Char.ofNat n]
  | n :: m :: rest =>
    if isHighHalf n then
      if isLowHalf m then
        (charsOfCodes? rest).map (Char.ofNat (0x10000 + (n - 0xd800) * 0x400 + (m - 0xdc00)) :: ·)
      else none
    else if isLowHalf n then none
    else (charsOfCodes? (m :: rest)).map (Char.ofNat n :: ·)

/-- Value of decimal digits. -/
def digitsValue (digits : List Char) : Nat :=
  digits.foldl (fun n c => n * 10 + (c.toNat - '0'.toNat)) 0

/-- Leading digits, at least one, and the rest of the text. -/
def digits? (s : List Char) : Option (List Char × List Char) :=
  match s.takeWhile Char.isDigit with
  | [] => none
  | digits => some (digits, s.dropWhile Char.isDigit)

/-- The whole part of a number; no zero stands before another digit. -/
def wholePart? (s : List Char) : Option (List Char × List Char) :=
  match s with
  | '0' :: rest => some (['0'], rest)
  | s => digits? s

/-- The part of a number after a point, if there is one. -/
def fraction? (s : List Char) : Option (List Char × List Char) :=
  match s with
  | '.' :: rest => digits? rest
  | s => some ([], s)

/-- The exponent of a number, if it has one. -/
def exponent? (s : List Char) : Option (Option Int × List Char) :=
  let signed (s : List Char) : Option (Option Int × List Char) :=
    match s with
    | '+' :: rest => (digits? rest).map fun (ds, rest) => (some (digitsValue ds : Int), rest)
    | '-' :: rest => (digits? rest).map fun (ds, rest) => (some (-(digitsValue ds : Int)), rest)
    | s => (digits? s).map fun (ds, rest) => (some (digitsValue ds : Int), rest)
  match s with
  | 'e' :: rest => signed rest
  | 'E' :: rest => signed rest
  | s => some (none, s)

/-- A number at the start of a text, and the rest. -/
def number? (s : List Char) : Option (JsonNumber × List Char) := do
  let (negative, s) := match s with
    | '-' :: rest => (true, rest)
    | s => (false, s)
  let (whole, s) ← wholePart? s
  let (fraction, s) ← fraction? s
  let (exponent, s) ← exponent? s
  let decimal : Decimal := ⟨digitsValue (whole ++ fraction), exponent.getD 0 - fraction.length⟩
  return (⟨negative, decimal, fraction.isEmpty && exponent.isNone⟩, s)

/-! ## Values -/

/-- A string after its opening quote, and the rest of the text. -/
def string? (s : List Char) : Option (Option String × List Char) :=
  (codes s).map fun (cs, rest) => ((charsOfCodes? cs).map String.ofList, rest)

mutual

/-- A value at the start of a text, and the rest.  The first argument bounds the nesting. -/
def value? : Nat → List Char → Option (JsonValue × List Char)
  | 0, _ => none
  | fuel + 1, s =>
    match skipBlank s with
    | '\x7b' :: rest =>
      match skipBlank rest with
      | '\x7d' :: rest => some (.object [], rest)
      | rest => (members? fuel rest).map fun (ms, rest) => (.object ms, rest)
    | '[' :: rest =>
      match skipBlank rest with
      | ']' :: rest => some (.array [], rest)
      | rest => (elements? fuel rest).map fun (vs, rest) => (.array vs, rest)
    | '"' :: rest => (string? rest).map fun (text, rest) => (.string text, rest)
    | 'n' :: 'u' :: 'l' :: 'l' :: rest => some (.null, rest)
    | 't' :: 'r' :: 'u' :: 'e' :: rest => some (.bool true, rest)
    | 'f' :: 'a' :: 'l' :: 's' :: 'e' :: rest => some (.bool false, rest)
    | s => (number? s).map fun (n, rest) => (.number n, rest)

/-- Elements of an array, at least one, up to its closing bracket. -/
def elements? : Nat → List Char → Option (List JsonValue × List Char)
  | 0, _ => none
  | fuel + 1, s =>
    match value? fuel s with
    | none => none
    | some (v, rest) =>
      match skipBlank rest with
      | ']' :: rest => some ([v], rest)
      | ',' :: rest => (elements? fuel rest).map fun (vs, rest) => (v :: vs, rest)
      | _ => none

/-- Members of an object, at least one, up to its closing brace. -/
def members? : Nat → List Char → Option (List (Option String × JsonValue) × List Char)
  | 0, _ => none
  | fuel + 1, s =>
    match skipBlank s with
    | '"' :: rest =>
      match string? rest with
      | none => none
      | some (key, rest) =>
        match skipBlank rest with
        | ':' :: rest =>
          match value? fuel rest with
          | none => none
          | some (v, rest) =>
            match skipBlank rest with
            | '\x7d' :: rest => some ([(key, v)], rest)
            | ',' :: rest => (members? fuel rest).map fun (ms, rest) => ((key, v) :: ms, rest)
            | _ => none
        | _ => none
    | _ => none

end

/-- The value that a text is. -/
def ofText? (text : String) : Option JsonValue :=
  let s := text.toList
  match value? (2 * s.length + 2) s with
  | some (v, rest) => if skipBlank rest = [] then some v else none
  | none => none

end JsonValue

end RegionRules
