import RegionRules.Toml.Value

/-!
# Filling TOML tables

A document is a sequence of headers and of values under dotted keys.  The operations here add one
of these to the entries read so far, and refuse what would define something twice:

* a key is given a value once;
* a table gets a header of its own once, though its name may before that have been implied by
  others;
* dotted keys extend tables that dotted keys have made, not tables with a header and not values.
-/

set_option autoImplicit false

namespace RegionRules
namespace TomlValue

/-- Entries with a new value under a dotted key.  The parts before the last one name tables, which
are made where there are none; the table named last must be one that dotted keys have made. -/
def put? : List String → TomlValue → Entries → Option Entries
  | [], _, _ => none
  | [key], v, entries =>
    match lookup? key entries with
    | none => some (store key v entries)
    | some _ => none
  | key :: next :: path, v, entries =>
    match lookup? key entries with
    | none =>
      (put? (next :: path) v []).map fun es => store key (.table .dotted es) entries
    | some (.table .dotted es) =>
      (put? (next :: path) v es).map fun es => store key (.table .dotted es) entries
    | some (.table .implied es) =>
      if path.isEmpty then none
      else (put? (next :: path) v es).map fun es => store key (.table .implied es) entries
    | some (.tables (es :: others)) =>
      if path.isEmpty then none
      else (put? (next :: path) v es).map fun es => store key (.tables (es :: others)) entries
    | some _ => none

/-- Entries with the table at a path changed.  Tables on the way are implied where there are none;
of several tables of the same name the last one is meant. -/
def within? (change : Entries → Option Entries) : List String → Entries → Option Entries
  | [], entries => change entries
  | key :: path, entries =>
    match lookup? key entries with
    | none =>
      (within? change path []).map fun es => store key (.table .implied es) entries
    | some (.table origin es) =>
      (within? change path es).map fun es => store key (.table origin es) entries
    | some (.tables (es :: others)) =>
      (within? change path es).map fun es => store key (.tables (es :: others)) entries
    | some _ => none

/-- Entries with a table that has a header. -/
def openTable? (key : String) (entries : Entries) : Option Entries :=
  match lookup? key entries with
  | none => some (store key (.table .header []) entries)
  | some (.table .implied es) => some (store key (.table .header es) entries)
  | some _ => none

/-- Entries with one more table of the same name. -/
def openElement? (key : String) (entries : Entries) : Option Entries :=
  match lookup? key entries with
  | none => some (store key (.tables [[]]) entries)
  | some (.tables all) => some (store key (.tables ([] :: all)) entries)
  | some _ => none

end TomlValue
end RegionRules
