import RegionRules.Toml.Scalar
import RegionRules.Toml.Table

/-!
# TOML documents

The entries that a TOML text denotes, in the order in which their keys first occur.  A text is
read line by line, a line being a header or a value under a key, and each line adds to the entries
of those before.
-/

set_option autoImplicit false

namespace RegionRules
namespace Toml

/-! ## Values -/

/-- A key as the text of a document may have it. -/
def dottedKey? (s : Rest) : Option (List String × Rest) := key? (nestingLimit - 1) s

/-- A key, an equals sign and blanks. -/
def keyEquals? (s : Rest) : Option (List String × Rest) :=
  (dottedKey? s).bind fun (key, rest) => (char? '=' rest).map fun rest => (key, skipBlank rest)

mutual

/-- A value.  The first argument bounds the steps, the second is the nesting so far. -/
def value? : Nat → Nat → Rest → Option (TomlValue × Rest)
  | 0, _, _ => none
  | fuel + 1, depth, s =>
    match s with
    | '"' :: _ => (string? s).map fun (text, rest) => (.string text, rest)
    | '\'' :: _ => (string? s).map fun (text, rest) => (.string text, rest)
    | '[' :: rest =>
      if depth + 1 < nestingLimit then
        (elements? fuel (depth + 1) rest).map fun (vs, rest) => (.array vs, rest)
      else none
    | '\x7b' :: rest =>
      if depth + 1 < nestingLimit then
        match skipBlank rest with
        | '\x7d' :: rest => some (.inlineTable [], rest)
        | rest =>
          (pairs? fuel (depth + 1) [] rest).map fun (entries, rest) => (.inlineTable entries, rest)
      else none
    | 't' :: 'r' :: 'u' :: 'e' :: rest => some (.boolean true, rest)
    | 'f' :: 'a' :: 'l' :: 's' :: 'e' :: rest => some (.boolean false, rest)
    | s => numeric? s

/-- Elements of an array up to its closing bracket.  A comma may follow on the last one. -/
def elements? : Nat → Nat → Rest → Option (List TomlValue × Rest)
  | 0, _, _ => none
  | fuel + 1, depth, s =>
    match skipSpace false s with
    | ']' :: rest => some ([], rest)
    | s =>
      match value? fuel depth s with
      | none => none
      | some (v, rest) =>
        match skipSpace false rest with
        | ']' :: rest => some ([v], rest)
        | ',' :: rest => (elements? fuel depth rest).map fun (vs, rest) => (v :: vs, rest)
        | _ => none

/-- Entries of a table in braces, at least one, up to the closing brace, added to those before. -/
def pairs? : Nat → Nat → TomlValue.Entries → Rest → Option (TomlValue.Entries × Rest)
  | 0, _, _, _ => none
  | fuel + 1, depth, entries, s =>
    match keyEquals? s with
    | none => none
    | some (key, rest) =>
      match value? fuel depth rest with
      | none => none
      | some (v, rest) =>
        match TomlValue.put? key v entries with
        | none => none
        | some entries =>
          match skipBlank rest with
          | '\x7d' :: rest => some (entries, rest)
          | ',' :: rest => pairs? fuel depth entries rest
          | _ => none

end

/-! ## Lines -/

/-- What a line of a document says. -/
inductive Line where
  | entry (key : List String) (v : TomlValue)
  /-- The header of a table, in brackets. -/
  | header (path : List String)
  /-- The header of one of several tables of a name, in double brackets. -/
  | element (path : List String)

/-- A line without its end.  The first argument bounds the steps within its value. -/
def line? (fuel : Nat) : Rest → Option (Line × Rest)
  | '[' :: '[' :: rest =>
    match dottedKey? rest with
    | some (path, ']' :: ']' :: rest) => some (.element path, rest)
    | _ => none
  | '[' :: rest =>
    match dottedKey? rest with
    | some (path, ']' :: rest) => some (.header path, rest)
    | _ => none
  | s =>
    (keyEquals? s).bind fun (key, rest) =>
      (value? fuel 0 rest).map fun (v, rest) => (.entry key v, rest)

/-- The lines of a text, without those that are blank or hold a comment.  The first argument
bounds the steps. -/
def lines? : Nat → Rest → Option (List Line)
  | 0, _ => none
  | fuel + 1, s =>
    match skipBlank s with
    | [] => some []
    | s =>
      match lineEnd? s with
      | some rest => lines? fuel rest
      | none =>
        match line? (fuel + 1) s with
        | none => none
        | some (line, rest) =>
          match lineEnd? rest with
          | none => none
          | some rest => (lines? fuel rest).map (line :: ·)

/-! ## Documents -/

/-- The entries read so far and the table whose header came last. -/
structure Document where
  entries : TomlValue.Entries := []
  current : List String := []

namespace Document

/-- The document with a header for the table at a path. -/
def openAt? (d : Document) (change : String → TomlValue.Entries → Option TomlValue.Entries)
    (path : List String) : Option Document :=
  path.getLast?.bind fun key =>
    (TomlValue.within? (change key) path.dropLast d.entries).map fun entries =>
      { entries, current := path }

/-- The document with one more line. -/
def add? (d : Document) : Line → Option Document
  | .entry key v =>
    (TomlValue.within? (TomlValue.put? key v) d.current d.entries).map fun entries =>
      { d with entries }
  | .header path => d.openAt? TomlValue.openTable? path
  | .element path => d.openAt? TomlValue.openElement? path

end Document

/-- The text without a byte order mark. -/
def skipMark : Rest → Rest
  | '\ufeff' :: rest => rest
  | s => s

/-- The entries that a text denotes. -/
def entries? (text : String) : Option TomlValue.Entries :=
  let s := skipMark text.toList
  (lines? (2 * s.length + 2) s).bind fun lines =>
    (lines.foldlM Document.add? {}).map (·.entries)

end Toml
end RegionRules
