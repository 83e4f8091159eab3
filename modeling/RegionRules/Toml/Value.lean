import RegionRules.Binary64.Decimal

/-!
# TOML values

The data that a TOML document denotes.  A table records how it came about, since that decides what
may still be added to it while the document is read.
-/

set_option autoImplicit false

namespace RegionRules

/-- How a table was introduced. -/
inductive TomlTable where
  /-- By a header of its own; the root of a document counts as such. -/
  | header
  /-- By the longer path of another table's header. -/
  | implied
  /-- By a dotted key. -/
  | dotted
  deriving DecidableEq

/-- A TOML value. -/
inductive TomlValue where
  | string (text : String)
  | integer (i : Int)
  | float (a : Binary64)
  | boolean (b : Bool)
  /-- A date, a time, or both, as written. -/
  | moment (text : String)
  | array (elements : List TomlValue)
  /-- A table written in braces. -/
  | inlineTable (entries : List (String × TomlValue))
  | table (origin : TomlTable) (entries : List (String × TomlValue))
  /-- Tables with headers of the same name, in double brackets; the last one comes first. -/
  | tables (all : List (List (String × TomlValue)))

namespace TomlValue

/-- The entries of a table. -/
abbrev Entries := List (String × TomlValue)

/-- The value under a key. -/
def lookup? (key : String) (entries : Entries) : Option TomlValue :=
  (entries.find? (·.1 == key)).map (·.2)

/-- Entries with another value under a key, a new one at the end. -/
def store (key : String) (v : TomlValue) : Entries → Entries
  | [] => [(key, v)]
  | (k, u) :: rest => if k == key then (key, v) :: rest else (k, u) :: store key v rest

end TomlValue

end RegionRules
