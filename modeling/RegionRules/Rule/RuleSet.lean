import RegionRules.Rule.Rule
import Std.Data.HashMap

/-!
# Rule sets

The rules of a match in the order of their declaration, with an index of the rules of each scope.
-/

set_option autoImplicit false

namespace RegionRules

/-- Rules in order, and the places of each scope's rules. -/
structure RuleSet (σ : Type) where
  rules : Array (Rule σ)
  places : Std.HashMap Scope (Array Nat)

namespace RuleSet

variable {σ : Type}

/-- The index with one more place under a scope. -/
def enter (places : Std.HashMap Scope (Array Nat)) (scope : Scope) (place : Nat) :
    Std.HashMap Scope (Array Nat) :=
  places.insert scope ((places.getD scope #[]).push place)

/-- The rule set of rules in order of declaration. -/
def ofList (rules : List (Rule σ)) : RuleSet σ where
  rules := rules.toArray
  places := rules.zipIdx.foldl (fun places (rule, place) => enter places rule.scope place) ∅

/-- Places of the rules of a scope, ascending. -/
def placesOf (set : RuleSet σ) (scope : Scope) : List Nat := (set.places.getD scope #[]).toList

/-- The rules of a scope in order of declaration. -/
def ofScope (set : RuleSet σ) (scope : Scope) : List (Rule σ) :=
  (set.placesOf scope).filterMap (set.rules[·]?)

/-- Every rule in order of declaration. -/
def toList (set : RuleSet σ) : List (Rule σ) := set.rules.toList

/-- Number of rules. -/
def size (set : RuleSet σ) : Nat := set.rules.size

/-- There is no rule. -/
def isEmpty (set : RuleSet σ) : Bool := set.rules.isEmpty

end RuleSet

end RegionRules
