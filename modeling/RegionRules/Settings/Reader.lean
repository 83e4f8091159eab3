import RegionRules.Settings.Settings
import RegionRules.Toml.Document

/-!
# Reading settings

Settings are written as a TOML document with the keys `proto`, `use_region_priority` and
`max_build_height`, none of which need be there; other keys are passed over.  A text that is no
TOML document is refused first; else the first fault in the order of the keys is reported.
-/

set_option autoImplicit false

namespace RegionRules

/-- Why settings cannot be read. -/
inductive SettingsError where
  /-- There is no file, or it is no text. -/
  | unreadable
  /-- The text is no TOML document. -/
  | malformed
  /-- The value of a key has another type than it should. -/
  | wrongType (key : String)
  /-- The height is too large or small. -/
  | heightOutOfRange (height : Int)
  | invalidVersion (cause : Version.Invalid)
  deriving DecidableEq

namespace Settings

/-- The settings with what an entry of the document says. -/
def enter (s : Settings) (entry : String × TomlValue) : Except SettingsError Settings :=
  match entry with
  | ("proto", .string text) =>
    match Version.parse text with
    | .ok proto => .ok { s with proto }
    | .error cause => .error (.invalidVersion cause)
  | ("use_region_priority", .boolean b) => .ok { s with priorityOverride := some b }
  | ("max_build_height", .integer height) =>
    if Int32.minValue.toInt ≤ height ∧ height ≤ Int32.maxValue.toInt then
      .ok { s with maxBuildHeight := some (Int32.ofInt height) }
    else .error (.heightOutOfRange height)
  | (key, _) =>
    if key ∈ ["proto", "use_region_priority", "max_build_height"] then .error (.wrongType key)
    else .ok s

/-- The settings that a text gives. -/
def ofText (text : String) : Except SettingsError Settings :=
  match Toml.entries? text with
  | none => .error .malformed
  | some entries => entries.foldlM enter {}

/-- The settings that a file gives, by its contents; none if it cannot be read. -/
def ofFile (contents : Option ByteArray) : Except SettingsError Settings :=
  match contents.bind String.fromUTF8? with
  | none => .error .unreadable
  | some text => ofText text

end Settings

end RegionRules
