import RegionRules.Json.Value
import RegionRules.Region.Shape
import RegionRules.Rule.Rule

/-!
# JSON forms of values

How bounds, shapes, scopes, answers, materials and kits are written in JSON.

A record is an object with all its fields, in any order and each once, or an array of exactly its
fields in order; other members of an object are passed over.  A vector is an array of three
numbers.  A choice is its name, or an object with the name as only member and null as value.
-/

set_option autoImplicit false

namespace RegionRules
namespace JsonValue

/-! ## Parts -/

/-- A number, provided that it is in range. -/
def binary64? : JsonValue → Option Binary64
  | .number n =>
    let a := n.decimal.toBinary64 n.negative
    if a = .infinity n.negative then none else some a
  | _ => none

/-- An array of three numbers. -/
def vec3? : JsonValue → Option Vec3
  | .array [x, y, z] => do return ⟨← x.binary64?, ← y.binary64?, ← z.binary64?⟩
  | _ => none

/-- The value of the only member with a name. -/
def onlyMember? (name : String) (members : List (Option String × JsonValue)) : Option JsonValue :=
  match members.filter (·.1 == some name) with
  | [(_, v)] => some v
  | _ => none

/-- The fields of a record. -/
def fields? (names : List String) : JsonValue → Option (List JsonValue)
  | .array vs => if vs.length = names.length then some vs else none
  | .object members =>
    if members.all (·.1.isSome) then names.mapM (onlyMember? · members) else none
  | _ => none

/-- The name of a choice. -/
def choice? : JsonValue → Option String
  | .string text => text
  | .object [(name, .null)] => name
  | _ => none

/-! ## Values -/

/-- Bounds. -/
def bounds? (v : JsonValue) : Option Bounds := do
  match ← v.fields? ["min", "max"] with
  | [lower, upper] => return ⟨← lower.vec3?, ← upper.vec3?⟩
  | _ => none

/-- A box. -/
def cuboid? (v : JsonValue) : Option Cuboid := do
  match ← v.fields? ["bounds"] with
  | [bounds] => return ⟨← bounds.bounds?⟩
  | _ => none

/-- A ball. -/
def sphere? (v : JsonValue) : Option Sphere := do
  match ← v.fields? ["center", "radius"] with
  | [center, radius] => return ⟨← center.vec3?, ← radius.binary64?⟩
  | _ => none

/-- An upright cylinder. -/
def cylinder? (v : JsonValue) : Option Cylinder := do
  match ← v.fields? ["base", "radius", "height"] with
  | [base, radius, height] => return ⟨← base.vec3?, ← radius.binary64?, ← height.binary64?⟩
  | _ => none

/-- A scope, by its name. -/
def scope? (v : JsonValue) : Option Scope := v.choice?.bind Scope.ofName?

/-- An answer, by its name. -/
def answer? (v : JsonValue) : Option Answer := v.choice?.bind Answer.ofName?

/-- A material: a whole number of 16 bits. -/
def material? : JsonValue → Option Material
  | .number n =>
    if n.isInteger ∧ n.negative = false ∧ n.decimal.digits < UInt16.size then
      some ⟨UInt16.ofNat n.decimal.digits⟩
    else none
  | _ => none

/-- A kit: its name. -/
def kit? : JsonValue → Option KitId
  | .string text => text.map KitId.mk
  | _ => none

end JsonValue
end RegionRules
