import RegionRules.Toml.Value

/-!
# TOML keys, strings and numbers

Readers for the parts of a TOML text that hold no other values.  Each takes a text and gives what
stands at its start together with the rest, or nothing if no such part stands there.
-/

set_option autoImplicit false

namespace RegionRules
namespace Toml

/-- A text that is yet to be read. -/
abbrev Rest := List Char

/-! ## Characters -/

/-- A blank within a line. -/
def isBlank (c : Char) : Bool := c == ' ' || c == '\t'

/-- A character that may stand in a comment or a literal string: no control character but the tab.
-/
def isPlain (c : Char) : Bool := c == '\t' || (' ' ≤ c && c != '\x7f')

/-- The text without blanks at its start. -/
def skipBlank (s : Rest) : Rest := s.dropWhile isBlank

/-- The text after a line break. -/
def newline? : Rest → Option Rest
  | '\n' :: rest => some rest
  | '\r' :: '\n' :: rest => some rest
  | _ => none

/-- The text after a comment, if one stands at its start. -/
def skipComment : Rest → Rest
  | '#' :: rest => rest.dropWhile isPlain
  | s => s

/-- The text after the end of a line, which may have a comment; the end of the text ends a line. -/
def lineEnd? (s : Rest) : Option Rest :=
  match skipComment (skipBlank s) with
  | [] => some []
  | s => newline? s

/-- The text without blanks, line breaks and comments at its start.  The flag tells that a comment
is going on. -/
def skipSpace : Bool → Rest → Rest
  | _, [] => []
  | _, '\n' :: rest => skipSpace false rest
  | _, '\r' :: '\n' :: rest => skipSpace false rest
  | true, c :: rest => if isPlain c then skipSpace true rest else c :: rest
  | false, c :: rest =>
    if isBlank c then skipSpace false rest
    else if c = '#' then skipSpace true rest
    else c :: rest

/-! ## Digits -/

/-- Value of a digit, also one above nine. -/
def digitValue (c : Char) : Nat :=
  if c ≤ '9' then c.toNat - '0'.toNat
  else if c ≤ 'F' then c.toNat - 'A'.toNat + 10
  else c.toNat - 'a'.toNat + 10

/-- A hexadecimal digit. -/
def isHex (c : Char) : Bool := c.isDigit || ('a' ≤ c && c ≤ 'f') || ('A' ≤ c && c ≤ 'F')

/-- Value of digits in a base. -/
def digitsValue (base : Nat) (digits : List Char) : Nat :=
  digits.foldl (fun n c => n * base + digitValue c) 0

/-- Digits up to the first character that is none; an underscore may stand between two digits. -/
def moreDigits (isDigit : Char → Bool) : Rest → List Char × Rest
  | '_' :: c :: rest =>
    if isDigit c then
      let (digits, rest) := moreDigits isDigit rest
      (c :: digits, rest)
    else ([], '_' :: c :: rest)
  | c :: rest =>
    if isDigit c then
      let (digits, rest) := moreDigits isDigit rest
      (c :: digits, rest)
    else ([], c :: rest)
  | [] => ([], [])

/-- Digits, at least one. -/
def digits? (isDigit : Char → Bool) : Rest → Option (List Char × Rest)
  | c :: rest =>
    if isDigit c then
      let (digits, rest) := moreDigits isDigit rest
      some (c :: digits, rest)
    else none
  | [] => none

/-! ## Strings -/

/-- The character with a code, unless the code is that of a surrogate or too large. -/
def charOfCode? (n : Nat) : Option Char :=
  if n.isValidChar then some (Char.ofNat n) else none

/-- The character that hexadecimal digits name. -/
def charOfHex? (digits : List Char) : Option Char :=
  if digits.all isHex then charOfCode? (digitsValue 16 digits) else none

/-- The character that an escape of one letter names. -/
def escapedChar? : Char → Option Char
  | 'b' => some '\x08'
  | 't' => some '\t'
  | 'n' => some '\n'
  | 'f' => some '\x0c'
  | 'r' => some '\r'
  | '"' => some '"'
  | '\\' => some '\\'
  | _ => none

/-- A character before the rest of a string. -/
def before (c : Char) : Option (List Char × Rest) → Option (List Char × Rest)
  | some (cs, rest) => some (c :: cs, rest)
  | none => none

/-- A string after its opening double quote, up to the closing one. -/
def basicString? : Rest → Option (List Char × Rest)
  | [] => none
  | '"' :: rest => some ([], rest)
  | '\\' :: 'u' :: a :: b :: c :: d :: rest =>
    (charOfHex? [a, b, c, d]).bind fun x => before x (basicString? rest)
  | '\\' :: 'U' :: a :: b :: c :: d :: e :: f :: g :: h :: rest =>
    (charOfHex? [a, b, c, d, e, f, g, h]).bind fun x => before x (basicString? rest)
  | '\\' :: c :: rest => (escapedChar? c).bind fun x => before x (basicString? rest)
  | c :: rest => if isPlain c then before c (basicString? rest) else none

/-- A string after its opening quote, up to the closing one, without escapes. -/
def literalString? : Rest → Option (List Char × Rest)
  | [] => none
  | '\'' :: rest => some ([], rest)
  | c :: rest => if isPlain c then before c (literalString? rest) else none

/-- The text after blanks and a line break. -/
def blankLineEnd (s : Rest) : Bool := (newline? (skipBlank s)).isSome

/-- A string of several lines after its opening double quotes, up to the closing ones.  Up to two
quotes may stand right before the closing three.  The flag tells that a backslash at the end of a
line has white space skipped. -/
def multilineBasic? : Bool → Rest → Option (List Char × Rest)
  | _, [] => none
  | _, '"' :: '"' :: '"' :: '"' :: '"' :: rest => some (['"', '"'], rest)
  | _, '"' :: '"' :: '"' :: '"' :: rest => some (['"'], rest)
  | _, '"' :: '"' :: '"' :: rest => some ([], rest)
  | _, '\\' :: 'u' :: a :: b :: c :: d :: rest =>
    (charOfHex? [a, b, c, d]).bind fun x => before x (multilineBasic? false rest)
  | _, '\\' :: 'U' :: a :: b :: c :: d :: e :: f :: g :: h :: rest =>
    (charOfHex? [a, b, c, d, e, f, g, h]).bind fun x => before x (multilineBasic? false rest)
  | _, '\\' :: c :: rest =>
    match escapedChar? c with
    | some x => before x (multilineBasic? false rest)
    | none => if blankLineEnd (c :: rest) then multilineBasic? true (c :: rest) else none
  | skipping, '\r' :: '\n' :: rest =>
    if skipping then multilineBasic? true rest else before '\n' (multilineBasic? false rest)
  | skipping, '\n' :: rest =>
    if skipping then multilineBasic? true rest else before '\n' (multilineBasic? false rest)
  | skipping, c :: rest =>
    if skipping && isBlank c then multilineBasic? true rest
    else if isPlain c then before c (multilineBasic? false rest)
    else none

/-- A string of several lines after its opening quotes, up to the closing ones, without escapes. -/
def multilineLiteral? : Rest → Option (List Char × Rest)
  | [] => none
  | '\'' :: '\'' :: '\'' :: '\'' :: '\'' :: rest => some (['\'', '\''], rest)
  | '\'' :: '\'' :: '\'' :: '\'' :: rest => some (['\''], rest)
  | '\'' :: '\'' :: '\'' :: rest => some ([], rest)
  | '\r' :: '\n' :: rest => before '\n' (multilineLiteral? rest)
  | '\n' :: rest => before '\n' (multilineLiteral? rest)
  | c :: rest => if isPlain c then before c (multilineLiteral? rest) else none

/-- The text without a line break at its start. -/
def skipNewline (s : Rest) : Rest := (newline? s).getD s

/-- A string of any of the four forms. -/
def string? (s : Rest) : Option (String × Rest) :=
  let chars := match s with
    | '"' :: '"' :: '"' :: rest => multilineBasic? false (skipNewline rest)
    | '\'' :: '\'' :: '\'' :: rest => multilineLiteral? (skipNewline rest)
    | '"' :: rest => basicString? rest
    | '\'' :: rest => literalString? rest
    | _ => none
  chars.map fun (cs, rest) => (String.ofList cs, rest)

/-! ## Keys -/

/-- A character of a bare key. -/
def isBareKey (c : Char) : Bool := c.isAlphanum || c == '-' || c == '_'

/-- One part of a key, bare or quoted. -/
def simpleKey? (s : Rest) : Option (String × Rest) :=
  let quoted := match s with
    | '"' :: rest => some (basicString? rest)
    | '\'' :: rest => some (literalString? rest)
    | _ => none
  match quoted with
  | some chars => chars.map fun (cs, rest) => (String.ofList cs, rest)
  | none =>
    match s.takeWhile isBareKey with
    | [] => none
    | cs => some (String.ofList cs, s.dropWhile isBareKey)

/-- Nesting from which on keys and values are refused. -/
def nestingLimit : Nat := 80

/-- A key of one part or of several parts joined by points, with blanks around its parts.  The first
argument bounds the number of parts. -/
def key? : Nat → Rest → Option (List String × Rest)
  | 0, _ => none
  | bound + 1, s =>
    match simpleKey? (skipBlank s) with
    | none => none
    | some (part, rest) =>
      match skipBlank rest with
      | '.' :: rest => (key? bound rest).map fun (parts, rest) => (part :: parts, rest)
      | rest => some ([part], rest)

/-! ## Numbers -/

/-- The sign of a number, negative if true. -/
def sign : Rest → Bool × Rest
  | '+' :: rest => (false, rest)
  | '-' :: rest => (true, rest)
  | s => (false, s)

/-- Decimal digits without a leading zero, unless zero is all. -/
def wholePart? : Rest → Option (List Char × Rest)
  | '0' :: rest => some (['0'], rest)
  | s => digits? Char.isDigit s

/-- The least and greatest integer. -/
def integerRange : Int × Int := (Int64.minValue.toInt, Int64.maxValue.toInt)

/-- An integer in range, as a value. -/
def ranged? (i : Int) (rest : Rest) : Option (TomlValue × Rest) :=
  if integerRange.1 ≤ i ∧ i ≤ integerRange.2 then some (.integer i, rest) else none

/-- An integer, decimal or with a base mark. -/
def integer? (s : Rest) : Option (TomlValue × Rest) :=
  let based (base : Nat) (isDigit : Char → Bool) (s : Rest) : Option (TomlValue × Rest) :=
    (digits? isDigit s).bind fun (digits, rest) => ranged? (digitsValue base digits) rest
  match s with
  | '0' :: 'x' :: rest => based 16 isHex rest
  | '0' :: 'o' :: rest => based 8 (fun c => '0' ≤ c && c ≤ '7') rest
  | '0' :: 'b' :: rest => based 2 (fun c => c == '0' || c == '1') rest
  | s =>
    let (negative, s) := sign s
    (wholePart? s).bind fun (digits, rest) =>
      let n : Int := digitsValue 10 digits
      ranged? (if negative then -n else n) rest

/-- The fraction of a float after its whole part. -/
def fraction? : Rest → Option (List Char × Rest)
  | '.' :: rest => digits? Char.isDigit rest
  | _ => none

/-- The exponent of a float. -/
def exponent? (s : Rest) : Option (Int × Rest) :=
  let signed (s : Rest) : Option (Int × Rest) :=
    let (negative, s) := sign s
    (digits? Char.isDigit s).map fun (digits, rest) =>
      let n : Int := digitsValue 10 digits
      (if negative then -n else n, rest)
  match s with
  | 'e' :: rest => signed rest
  | 'E' :: rest => signed rest
  | _ => none

/-- A float with a fraction, an exponent, or both.  A positive one must not be too large. -/
def decimalFloat? (s : Rest) : Option (TomlValue × Rest) :=
  let (negative, s) := sign s
  (wholePart? s).bind fun (whole, s) =>
    let parts := match fraction? s with
      | some (fraction, s) =>
        match exponent? s with
        | some (e, s) => some (fraction, e, s)
        | none => some (fraction, 0, s)
      | none => (exponent? s).map fun (e, s) => ([], e, s)
    parts.bind fun (fraction, e, rest) =>
      let d : Decimal := ⟨digitsValue 10 (whole ++ fraction), e - fraction.length⟩
      let a := d.toBinary64 negative
      if a = .infinity false then none else some (.float a, rest)

/-- An infinity or NaN, with or without sign. -/
def specialFloat? (s : Rest) : Option (TomlValue × Rest) :=
  let (negative, s) := sign s
  match s with
  | 'i' :: 'n' :: 'f' :: rest => some (.float (.infinity negative), rest)
  | 'n' :: 'a' :: 'n' :: rest => some (.float .nan, rest)
  | _ => none

/-! ## Dates and times -/

/-- A number of two digits in a range. -/
def twoDigits? (least greatest : Nat) : Rest → Option (Nat × Rest)
  | a :: b :: rest =>
    if a.isDigit && b.isDigit then
      let n := digitsValue 10 [a, b]
      if least ≤ n ∧ n ≤ greatest then some (n, rest) else none
    else none
  | _ => none

/-- The text after a character. -/
def char? (c : Char) : Rest → Option Rest
  | d :: rest => if d = c then some rest else none
  | [] => none

/-- Number of days of a month. -/
def daysOfMonth (year month : Nat) : Nat :=
  if month = 2 then
    if year % 4 = 0 ∧ (year % 100 ≠ 0 ∨ year % 400 = 0) then 29 else 28
  else if month = 4 ∨ month = 6 ∨ month = 9 ∨ month = 11 then 30
  else 31

/-- The text after a date. -/
def date? : Rest → Option Rest
  | a :: b :: c :: d :: '-' :: rest =>
    if [a, b, c, d].all Char.isDigit then do
      let (month, rest) ← twoDigits? 1 12 rest
      let rest ← char? '-' rest
      let (_, rest) ← twoDigits? 1 (daysOfMonth (digitsValue 10 [a, b, c, d]) month) rest
      return rest
    else none
  | _ => none

/-- The text after a time of day. -/
def time? (s : Rest) : Option Rest := do
  let (_, s) ← twoDigits? 0 23 s
  let s ← char? ':' s
  let (_, s) ← twoDigits? 0 59 s
  let s ← char? ':' s
  let (_, s) ← twoDigits? 0 60 s
  match s with
  | '.' :: c :: rest =>
    if c.isDigit then return rest.dropWhile Char.isDigit else none
  | '.' :: [] => none
  | s => return s

/-- The text after an offset from universal time, which need not be there. -/
def offset? (s : Rest) : Option Rest :=
  let numeric (s : Rest) : Option Rest := do
    let (_, s) ← twoDigits? 0 23 s
    let s ← char? ':' s
    let (_, s) ← twoDigits? 0 59 s
    return s
  match s with
  | 'Z' :: rest => some rest
  | 'z' :: rest => some rest
  | '+' :: rest => numeric rest
  | '-' :: rest => numeric rest
  | s => some s

/-- The text after a date, a time of day, or a date and time with or without offset. -/
def moment? (s : Rest) : Option Rest :=
  match date? s with
  | none => time? s
  | some rest =>
    let timed : Option Rest := match rest with
      | 'T' :: s => time? s
      | 't' :: s => time? s
      | ' ' :: s => time? s
      | _ => none
    match timed with
    | some rest => offset? rest
    | none => some rest

/-- The characters of a text before its rest. -/
def written (s rest : Rest) : String := String.ofList (s.take (s.length - rest.length))

/-- A number, date or time. -/
def numeric? (s : Rest) : Option (TomlValue × Rest) :=
  match moment? s with
  | some rest => some (.moment (written s rest), rest)
  | none =>
    match decimalFloat? s with
    | some v => some v
    | none =>
      match specialFloat? s with
      | some v => some v
      | none => integer? s

end Toml
end RegionRules
