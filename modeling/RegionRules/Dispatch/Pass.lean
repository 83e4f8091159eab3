import RegionRules.Dispatch.Outcome

/-!
# Passes

A pass walks rules in order.  It selects the rules that an event concerns, with the query that
their filters are asked; after a rule that decided it may react; and it may end there.  All
handlers but the one for effects are passes.

A rule is selected in the state in which the walk reaches it, which earlier filters may have
changed.
-/

set_option autoImplicit false

namespace RegionRules

/-- How to walk rules for an event. -/
structure Pass (σ : Type) where
  /-- The query for a rule that the event concerns in a state. -/
  select : Rule σ → σ → Option Query
  /-- What follows on the decision of a rule. -/
  react : Rule σ → Event → σ → Outcome σ := fun _ => .unchanged
  /-- The decision of a rule ends the walk. -/
  halts : Rule σ → Bool

namespace Pass

variable {σ : Type}

/-- Put an event to rules in order. -/
def run (pass : Pass σ) : List (Rule σ) → Event → σ → Outcome σ
  | [], e, w => .unchanged e w
  | rule :: rules, e, w =>
    match pass.select rule w with
    | none => run pass rules e w
    | some query =>
      let (decided, outcome) := rule.decide query e w
      if decided then
        let outcome := outcome.andThen (pass.react rule)
        if pass.halts rule then outcome else outcome.andThen (run pass rules)
      else outcome.andThen (run pass rules)

end Pass

/-! ## Reactions -/

/-- The message of a rule as a warning. -/
def Rule.warnings {σ : Type} (rule : Rule σ) : List Request :=
  rule.message.toList.map .warn

/-- Warn a player with the rule's message if the event is cancelled. -/
def warnIfCancelled {σ : Type} (player : Option (Player σ)) (rule : Rule σ) (e : Event) (w : σ) :
    Outcome σ :=
  .request player (if e.isCancelled then rule.warnings else []) e w

/-- Turn the denial of a right-click into a denial of the block alone, so that the item may still be
used, and warn the player.  Other events stay as they are. -/
def allowItemUse {σ : Type} (player : Option (Player σ)) (rule : Rule σ) (e : Event) (w : σ) :
    Outcome σ :=
  match e with
  | .interact i =>
    if i.isCancelled then
      .request player rule.warnings (.interact { i with useItem := .allow, useBlock := .deny }) w
    else .unchanged e w
  | e => .unchanged e w

end RegionRules
