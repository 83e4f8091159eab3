import RegionRules.Proofs.Dispatch.Decisions
import RegionRules.Dispatch.Pass

/-!
# Walks

Which filters does a pass ask?  A *concern* says of a rule, in the state in which it is reached,
what its filter is to be asked, if anything.  `Walk` goes through all rules of a list: it asks the
filter of every rule that is concerned when it is reached, and hands the state that the filter
leaves on to the next rule.  `WalkTo` stops at the first decision of a rule whose decisions are
final.

A pass without reactions makes such a walk, and leaves the event as the last decision on it says
(`Pass.run_walkTo`, `Pass.run_standsAfter`).
-/

set_option autoImplicit false

namespace RegionRules

variable {σ : Type}

/-- What the filters of rules are to be asked in a state. -/
abbrev Concern (σ : Type) := Rule σ → σ → Query → Prop

/-- The filter of a concerned rule is asked in the state `w` and leaves `w'`. -/
structure Asks (concern : Concern σ) (rule : Rule σ) (w : σ) (query : Query) (answer : Answer)
    (w' : σ) : Prop where
  concerned : concern rule w query
  ask : ∃ filter, rule.filter = some filter ∧ filter.ask query w = (answer, w')

/-- All rules are reached one after the other, the first in the state `w`; those that have a filter
and are concerned when they are reached are asked, and the others are passed by.  The last rule
leaves `w'`. -/
inductive Walk (concern : Concern σ) : List (Rule σ) → σ → List (Entry σ) → σ → Prop
  | nil (w : σ) : Walk concern [] w [] w
  | skip {rule : Rule σ} {rules : List (Rule σ)} {w w' : σ} {trace : List (Entry σ)}
      (hskip : rule.filter = none ∨ ∀ query, ¬ concern rule w query)
      (hrest : Walk concern rules w trace w') : Walk concern (rule :: rules) w trace w'
  | ask {rule : Rule σ} {rules : List (Rule σ)} {w w₁ w' : σ} {trace : List (Entry σ)}
      {query : Query} {answer : Answer} (hask : Asks concern rule w query answer w₁)
      (hrest : Walk concern rules w₁ trace w') :
      Walk concern (rule :: rules) w (.consulted rule query answer :: trace) w'

/-- The entry is a decision of a rule whose decisions are final. -/
def Entry.IsFinal (final : Rule σ → Prop) : Entry σ → Prop
  | .consulted rule _ answer => answer.isDecisive = true ∧ final rule
  | .requested _ => False

/-- The rules are walked up to and including the first final decision, or to the end if there is
none. -/
inductive WalkTo (concern : Concern σ) (final : Rule σ → Prop) (rules : List (Rule σ)) (w : σ) :
    List (Entry σ) → σ → Prop
  | toEnd {w' : σ} {trace : List (Entry σ)} (hwalk : Walk concern rules w trace w')
      (hopen : ∀ entry ∈ trace, ¬ entry.IsFinal final) : WalkTo concern final rules w trace w'
  | toDecision {w₁ w' : σ} {trace : List (Entry σ)} {query : Query} {answer : Answer}
      (walked : List (Rule σ)) (rule : Rule σ) (rest : List (Rule σ))
      (hrules : rules = walked ++ rule :: rest) (hwalk : Walk concern walked w trace w₁)
      (hopen : ∀ entry ∈ trace, ¬ entry.IsFinal final)
      (hask : Asks concern rule w₁ query answer w') (hanswer : answer.isDecisive = true)
      (hfinal : final rule) :
      WalkTo concern final rules w (trace ++ [.consulted rule query answer]) w'

namespace WalkTo

variable {concern : Concern σ} {final : Rule σ → Prop} {rule : Rule σ} {rules : List (Rule σ)}
  {w w₁ w' : σ} {trace : List (Entry σ)} {query : Query} {answer : Answer}

lemma skip (hskip : rule.filter = none ∨ ∀ query, ¬ concern rule w query)
    (h : WalkTo concern final rules w trace w') :
    WalkTo concern final (rule :: rules) w trace w' := by
  cases h with
  | toEnd hwalk hopen => exact .toEnd (.skip hskip hwalk) hopen
  | toDecision walked last rest hrules hwalk hopen hask hanswer hfinal =>
    exact .toDecision (rule :: walked) last rest (by rw [hrules]; rfl) (.skip hskip hwalk) hopen
      hask hanswer hfinal

lemma ask (hask : Asks concern rule w query answer w₁)
    (hgo : ¬ (answer.isDecisive = true ∧ final rule))
    (h : WalkTo concern final rules w₁ trace w') :
    WalkTo concern final (rule :: rules) w (.consulted rule query answer :: trace) w' := by
  cases h with
  | toEnd hwalk hopen =>
    exact .toEnd (.ask hask hwalk) (List.forall_mem_cons.2 ⟨hgo, hopen⟩)
  | toDecision walked last rest hrules hwalk hopen hask' hanswer hfinal =>
    exact .toDecision (rule :: walked) last rest (by rw [hrules]; rfl) (.ask hask hwalk)
      (List.forall_mem_cons.2 ⟨hgo, hopen⟩) hask' hanswer hfinal

lemma stop (rules : List (Rule σ)) (hask : Asks concern rule w query answer w')
    (hanswer : answer.isDecisive = true) (hfinal : final rule) :
    WalkTo concern final (rule :: rules) w [.consulted rule query answer] w' :=
  .toDecision [] rule rules rfl (.nil w) (fun _ h => nomatch h) hask hanswer hfinal

/-- Where every decision is final there is at most one. -/
lemma head?_decisions (h : WalkTo concern (fun _ => True) rules w trace w') :
    (Entry.decisions trace).head? = (Entry.decisions trace).getLast? := by
  have hnone {trace : List (Entry σ)} (hopen : ∀ entry ∈ trace, ¬ entry.IsFinal fun _ => True) :
      Entry.decisions trace = [] := by
    rw [Entry.decisions_eq_nil_iff]
    intro entry hentry
    cases entry with
    | consulted rule query answer => exact if_neg fun hanswer => hopen _ hentry ⟨hanswer, trivial⟩
    | requested request => rfl
  cases h with
  | toEnd hwalk hopen => rw [hnone hopen]; rfl
  | toDecision walked last rest hrules hwalk hopen hask hanswer hfinal =>
    rw [Entry.decisions_append, hnone hopen, List.nil_append, Entry.decisions_consulted,
      if_pos hanswer]
    rfl

end WalkTo

namespace Pass

variable {pass : Pass σ} {concern : Concern σ} (hreact : pass.react = fun _ => Outcome.unchanged)
  (hselect : ∀ rule w query, pass.select rule w = some query ↔ concern rule w query)

/-! ## One rule of a pass -/

/-- A pass goes on to the next rule, or has a filter and a query for it. -/
lemma skips_or_asks (pass : Pass σ) (rule : Rule σ) (w : σ) :
    (rule.filter = none ∨ pass.select rule w = none) ∨
      ∃ filter query, rule.filter = some filter ∧ pass.select rule w = some query := by
  cases rule.filter with
  | none => exact .inl (.inl rfl)
  | some filter =>
    cases pass.select rule w with
    | none => exact .inl (.inr rfl)
    | some query => exact .inr ⟨filter, query, rfl, rfl⟩

lemma run_skip {rule : Rule σ} {w : σ} (rules : List (Rule σ)) (e : Event)
    (h : rule.filter = none ∨ pass.select rule w = none) :
    pass.run (rule :: rules) e w = pass.run rules e w := by
  rw [run]
  rcases h with h | h
  · cases pass.select rule w with
    | none => rfl
    | some query =>
      simp only [Rule.decide, h]
      rfl
  · rw [h]

include hreact

lemma run_ask {rule : Rule σ} {filter : Filter σ} {w w₁ : σ} {query : Query} {answer : Answer}
    (rules : List (Rule σ)) (e : Event) (hselect : pass.select rule w = some query)
    (hfilter : rule.filter = some filter) (hask : filter.ask query w = (answer, w₁)) :
    pass.run (rule :: rules) e w =
      if answer.isDecisive && pass.halts rule then
        ⟨e.apply answer rule.message, w₁, [.consulted rule query answer]⟩
      else
        let rest := pass.run rules (e.apply answer rule.message) w₁
        ⟨rest.event, rest.world, .consulted rule query answer :: rest.trace⟩ := by
  rw [run, hselect]
  simp only [Rule.decide_spec rule query e w hfilter, hask, hreact]
  cases answer.isDecisive with
  | false => rfl
  | true => cases pass.halts rule <;> rfl

/-! ## The whole pass -/

/-- **A pass leaves the event as the last decision says.** -/
theorem run_standsAfter (rules : List (Rule σ)) (e : Event) (w : σ) :
    e.StandsAfter (Entry.decisions (pass.run rules e w).trace).getLast?
      (pass.run rules e w).event := by
  induction rules generalizing e w with
  | nil => rfl
  | cons rule rules ih =>
    rcases pass.skips_or_asks rule w with hskip | ⟨filter, query, hfilter, hselect⟩
    · rw [run_skip rules e hskip]
      exact ih e w
    · obtain ⟨answer, w₁, hask⟩ : ∃ answer w₁, filter.ask query w = (answer, w₁) := ⟨_, _, rfl⟩
      -- The event after this rule alone.
      have hone : e.StandsAfter
          (Entry.decisions [Entry.consulted rule query answer]).getLast?
          (e.apply answer rule.message) := by
        rw [Entry.decisions_consulted]
        by_cases hanswer : answer.isDecisive = true
        · rw [if_pos hanswer]
          exact Event.standsAfter_apply (d := ⟨answer, rule.message⟩) e hanswer
        · rw [if_neg hanswer]
          cases answer with
          | abstain => rfl
          | _ => exact absurd rfl hanswer
      rw [run_ask hreact rules e hselect hfilter hask]
      split_ifs with hstop
      · exact hone
      · have hrest := hone.append (ih (e.apply answer rule.message) w₁)
        rwa [← Entry.decisions_append, List.singleton_append] at hrest

include hselect

/-- **A pass walks the rules up to the first decision that ends it.** -/
theorem run_walkTo (rules : List (Rule σ)) (e : Event) (w : σ) :
    WalkTo concern (fun rule => pass.halts rule = true) rules w (pass.run rules e w).trace
      (pass.run rules e w).world := by
  induction rules generalizing e w with
  | nil => exact .toEnd (.nil w) fun _ h => nomatch h
  | cons rule rules ih =>
    rcases pass.skips_or_asks rule w with hskip | ⟨filter, query, hfilter, hquery⟩
    · rw [run_skip rules e hskip]
      refine (ih e w).skip (hskip.imp_right fun hnone query hconcern => ?_)
      rw [← hselect, hnone] at hconcern
      cases hconcern
    · obtain ⟨answer, w₁, hask⟩ : ∃ answer w₁, filter.ask query w = (answer, w₁) := ⟨_, _, rfl⟩
      have hasks : Asks concern rule w query answer w₁ :=
        ⟨(hselect rule w query).1 hquery, filter, hfilter, hask⟩
      rw [run_ask hreact rules e hquery hfilter hask]
      split_ifs with hstop
      · rw [Bool.and_eq_true] at hstop
        exact .stop rules hasks hstop.1 hstop.2
      · rw [Bool.and_eq_true] at hstop
        exact (ih (e.apply answer rule.message) w₁).ask hasks hstop

end Pass

end RegionRules
