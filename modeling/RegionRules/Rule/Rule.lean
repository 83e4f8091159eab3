import RegionRules.Region.Basic
import RegionRules.Rule.Query
import RegionRules.Rule.Scope
import RegionRules.Text.Quoted

/-!
# Rules

A rule binds a region to a scope.  Its filter, if it has one, decides events; its velocity and kit
are given to players who cross the boundary of the region.
-/

set_option autoImplicit false

namespace RegionRules

/-- Names a kit of items. -/
structure KitId where
  name : String
  deriving DecidableEq, Inhabited

/-- A rule. -/
structure Rule (σ : Type) where
  scope : Scope
  region : Region σ
  filter : Option (Filter σ) := none
  /-- Told to a player whose event the rule denies. -/
  message : Option String := none
  /-- A decision of this rule ends the pass also where decisions do not in general. -/
  priorityAware : Bool := false
  /-- The rule is put to a player who starts to break a block, before the block breaks. -/
  earlyWarning : Bool := false
  /-- Given to players who enter. -/
  velocity : Option Vec3 := none
  /-- Given to players who enter. -/
  kit : Option KitId := none
  /-- The kit is taken back from players who leave. -/
  lendKit : Bool := false

namespace Rule

variable {σ : Type}

/-- The rule does something on entry or exit. -/
def hasEffects (r : Rule σ) : Bool := r.velocity.isSome || r.kit.isSome

/-- An optional part of a report. -/
def optionText {α : Type} (text : α → String) : Option α → String
  | some a => "Some(" ++ text a ++ ")"
  | none => "None"

/-- Report on a rule, the region given by its text. -/
def text (regionText : String) (r : Rule σ) : String :=
  "RegionRule \x7b scope: " ++ r.scope.label ++ ", region: " ++ regionText ++
    ", filter: " ++ toString r.filter.isSome ++
    ", message: " ++ optionText Text.quoted r.message ++
    ", use_region_priority: " ++ toString r.priorityAware ++
    ", early_warning: " ++ toString r.earlyWarning ++
    ", velocity: " ++ optionText Vec3.text r.velocity ++
    ", kit: " ++ optionText (fun k => "KitId(" ++ Text.quoted k.name ++ ")") r.kit ++
    ", lend_kit: " ++ toString r.lendKit ++ " \x7d"

end Rule

end RegionRules
