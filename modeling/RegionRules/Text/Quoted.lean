import RegionRules.Text.Printable

/-!
# Quoted text

Text in reports stands between double quotes.  Quotes, backslashes and characters that do not show
are escaped.
-/

set_option autoImplicit false

namespace RegionRules
namespace Text

/-- Escape by code point, in lower-case hexadecimal digits. -/
def codeEscape (c : Char) : String :=
  "\\u\x7b" ++ String.ofList (Nat.toDigits 16 c.toNat) ++ "\x7d"

/-- A character as it stands in a quoted text. -/
def escaped (c : Char) : String :=
  match c with
  | '\x00' => "\\0"
  | '\t' => "\\t"
  | '\n' => "\\n"
  | '\r' => "\\r"
  | '"' => "\\\""
  | '\\' => "\\\\"
  | c => if isPrintable c then c.toString else codeEscape c

/-- The quoted form of a text. -/
def quoted (s : String) : String :=
  "\"" ++ String.join (s.toList.map escaped) ++ "\""

end Text
end RegionRules
