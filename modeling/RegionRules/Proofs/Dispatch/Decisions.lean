import Mathlib
import RegionRules.Dispatch.Outcome

/-!
# Decisions

A filter that allows or denies decides the event.  A later decision takes the place of an earlier
one, so how an event stands in the end depends on the last decision alone (`StandsAfter`).  Moves
and block changes, and no other events, keep the message of the rule that denied them
(`keepsMessage_iff`); the message of other events is never touched.
-/

set_option autoImplicit false

namespace RegionRules

/-! ## Decisions of a trace -/

/-- A decisive answer, with the message of the rule. -/
structure Decision where
  answer : Answer
  message : Option String

namespace Entry

variable {σ : Type}

/-- The decision of an entry, if it is one. -/
def decision? : Entry σ → Option Decision
  | .consulted rule _ answer => if answer.isDecisive then some ⟨answer, rule.message⟩ else none
  | .requested _ => none

/-- The decisions of a trace in order. -/
def decisions (trace : List (Entry σ)) : List Decision := trace.filterMap decision?

lemma decisions_append (trace trace' : List (Entry σ)) :
    decisions (trace ++ trace') = decisions trace ++ decisions trace' :=
  List.filterMap_append

lemma decisions_consulted (rule : Rule σ) (query : Query) (answer : Answer) :
    decisions [.consulted rule query answer] =
      if answer.isDecisive then [⟨answer, rule.message⟩] else [] := by
  cases answer <;> rfl

lemma decisions_eq_nil_iff {trace : List (Entry σ)} :
    decisions trace = [] ↔ ∀ entry ∈ trace, entry.decision? = none := by
  rw [decisions, List.filterMap_eq_nil_iff]

end Entry

/-! ## Events after a decision -/

namespace Event

/-- The message of an event. -/
def message? (e : Event) : Option String := e.status?.bind (·.message)

/-- The event `e'` is `e` after a decision.  An event that keeps messages has no message after it is
allowed and that of the rule after it is denied; other events have the message they had.  Without a
decision the event is as it was. -/
def StandsAfter (e : Event) (decision : Option Decision) (e' : Event) : Prop :=
  match decision with
  | none => e' = e
  | some d =>
    e'.kind = e.kind ∧ e'.isCancelled = decide (d.answer = .deny) ∧
      e'.message? =
        if e.keepsMessage then if d.answer = .deny then d.message else none else e.message?

variable {e e' e'' : Event} {d d' : Decision}

/-- The events that keep messages are the moves and the block changes. -/
lemma keepsMessage_iff (e : Event) :
    e.keepsMessage = true ↔ e.kind = .coarseMove ∨ e.kind = .blockTransform := by
  cases e <;> simp [keepsMessage, kind]

lemma keepsMessage_congr (h : e'.kind = e.kind) : e'.keepsMessage = e.keepsMessage := by
  rw [Bool.eq_iff_iff, keepsMessage_iff, keepsMessage_iff, h]

lemma standsAfter_apply (e : Event) (h : d.answer.isDecisive = true) :
    e.StandsAfter (some d) (e.apply d.answer d.message) := by
  obtain ⟨answer, message⟩ := d
  cases answer with
  | abstain => cases h
  | allow =>
    cases e with
    | interact i =>
      obtain ⟨action, clicked, item, block⟩ := i
      cases block <;> exact ⟨rfl, rfl, rfl⟩
    | _ => exact ⟨rfl, rfl, rfl⟩
  | deny => cases e <;> exact ⟨rfl, rfl, rfl⟩

/-- A later decision takes the place of an earlier one. -/
lemma StandsAfter.trans (h : e.StandsAfter (some d) e') (h' : e'.StandsAfter (some d') e'') :
    e.StandsAfter (some d') e'' := by
  obtain ⟨hkind, -, hmessage⟩ := h
  obtain ⟨hkind', hcancelled', hmessage'⟩ := h'
  refine ⟨hkind'.trans hkind, hcancelled', ?_⟩
  rw [hmessage', keepsMessage_congr hkind]
  by_cases hkeeps : e.keepsMessage = true
  · rw [if_pos hkeeps, if_pos hkeeps]
  · rw [if_neg hkeeps, if_neg hkeeps, hmessage, if_neg hkeeps]

/-- An event that went through two traces stands after the last decision of both. -/
lemma StandsAfter.append {decisions decisions' : List Decision}
    (h : e.StandsAfter decisions.getLast? e') (h' : e'.StandsAfter decisions'.getLast? e'') :
    e.StandsAfter (decisions ++ decisions').getLast? e'' := by
  cases hlast' : decisions'.getLast? with
  | none =>
    rw [List.getLast?_eq_none_iff] at hlast'
    subst hlast'
    rw [List.append_nil]
    exact (show e'' = e' from h') ▸ h
  | some d' =>
    rw [List.getLast?_append, hlast', Option.some_or]
    rw [hlast'] at h'
    cases hlast : decisions.getLast? with
    | none =>
      rw [hlast] at h
      exact (show e' = e from h) ▸ h'
    | some d =>
      rw [hlast] at h
      exact h.trans h'

end Event

/-- A rule leaves the event as its decision says. -/
lemma Rule.decide_spec {σ : Type} (rule : Rule σ) (query : Query) (e : Event) (w : σ)
    {filter : Filter σ} (hfilter : rule.filter = some filter) :
    rule.decide query e w =
      ((filter.ask query w).1.isDecisive,
        ⟨e.apply (filter.ask query w).1 rule.message, (filter.ask query w).2,
          [.consulted rule query (filter.ask query w).1]⟩) := by
  rw [decide, hfilter]

end RegionRules
