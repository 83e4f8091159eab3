import Mathlib
import RegionRules.Rule.RuleSet

/-!
# The index of a rule set

A rule set finds the rules of a scope through an index of places, which is filled rule by rule.
The index of a scope has the places of its rules in order (`placesOf_ofList`), so what it finds is
the list of rules with the others left out (`ofScope_ofList`).
-/

set_option autoImplicit false

namespace RegionRules
namespace RuleSet

variable {σ : Type}

/-- Entering a place changes the places of its scope alone. -/
lemma getD_enter (places : Std.HashMap Scope (Array Nat)) (scope scope' : Scope) (place : Nat) :
    ((enter places scope place).getD scope' #[]).toList =
      (places.getD scope' #[]).toList ++ if scope = scope' then [place] else [] := by
  unfold enter
  rw [Std.HashMap.getD_insert]
  by_cases h : scope = scope'
  · subst h
    simp
  · simp [h]

/-- Filling the index appends the places of each scope's rules in order. -/
lemma getD_foldl_enter (scope : Scope) (rules : List (Rule σ × Nat))
    (places : Std.HashMap Scope (Array Nat)) :
    ((rules.foldl (fun places (rule, place) => enter places rule.scope place) places).getD
        scope #[]).toList =
      (places.getD scope #[]).toList ++
        (rules.filter (·.1.scope = scope)).map (·.2) := by
  induction rules generalizing places with
  | nil => simp
  | cons r rules ih =>
    rw [List.foldl_cons, ih, getD_enter, List.append_assoc]
    by_cases h : r.1.scope = scope
    · simp [h]
    · simp [h]

lemma placesOf_ofList (rules : List (Rule σ)) (scope : Scope) :
    (ofList rules).placesOf scope = (rules.zipIdx.filter (·.1.scope = scope)).map (·.2) := by
  rw [placesOf, ofList, getD_foldl_enter]
  simp

/-- **A scope has its rules in order of declaration,** none left out and none twice. -/
theorem ofScope_ofList (rules : List (Rule σ)) (scope : Scope) :
    (ofList rules).ofScope scope = rules.filter (·.scope = scope) := by
  have hfind : ∀ x ∈ rules.zipIdx.filter (·.1.scope = scope),
      ((ofList rules).rules[x.2]? : Option (Rule σ)) = some x.1 := by
    rintro ⟨rule, place⟩ h
    have hmem := (List.mem_filter.1 h).1
    rw [List.mem_zipIdx_iff_getElem?] at hmem
    simpa [ofList] using hmem
  rw [ofScope, placesOf_ofList, List.filterMap_map]
  calc
    (rules.zipIdx.filter (·.1.scope = scope)).filterMap
        (fun x => (ofList rules).rules[x.2]?)
      = (rules.zipIdx.filter (·.1.scope = scope)).filterMap (fun x => some x.1) :=
        List.filterMap_congr hfind
    _ = (rules.zipIdx.filter (·.1.scope = scope)).map Prod.fst := by
        rw [List.filterMap_eq_map']
    _ = (rules.zipIdx.map Prod.fst).filter (·.scope = scope) := by
        rw [List.filter_map]
        rfl
    _ = rules.filter (·.scope = scope) := by rw [List.zipIdx_map_fst]

lemma ofScope_subset (rules : List (Rule σ)) (scope : Scope) :
    (ofList rules).ofScope scope ⊆ rules := by
  rw [ofScope_ofList]
  exact List.filter_subset_self _

end RuleSet
end RegionRules
