import RegionRules.Proofs.Dispatch.Effects

/-!
# Walks with warnings

The handlers for damage, use and hanging entities react to decisions: a denial is told to the
player, and the event may be settled further.  A warning changes the match as any request may, so
what a later rule is asked depends on the warnings before it.

`WarnedWalk` is the walk of such a handler.  Its requests are the warnings of its decisions
(`WarnedWalk.requests_eq`).  A pass makes one if its reaction to a decision is to settle the event
and to warn, which is a matter of one rule (`Pass.Settles`), and then it settles the event by one
decision after the other (`Pass.Settles.run`).
-/

set_option autoImplicit false

namespace RegionRules

variable {σ : Type}

/-! ## Warnings -/

/-- What a player is told of a decision: the message of a denial, if there is one. -/
def Decision.warnings (d : Decision) : List Request :=
  if d.answer = .deny then d.message.toList.map .warn else []

/-- The answer of a rule's filter, with the message of the rule. -/
def Rule.decision (rule : Rule σ) (answer : Answer) : Decision := ⟨answer, rule.message⟩

namespace Player

variable (player : Option (Player σ)) (requests : List Request)

/-- The state after requests to a player, if there is one. -/
def after (w : σ) : σ := player.elim w fun p => requests.foldl (fun w r => p.perform r w) w

/-- Requests as they show in a trace, if there is a player. -/
def told : List (Entry σ) := player.elim [] fun _ => requests.map .requested

end Player

lemma Outcome.request_eq (player : Option (Player σ)) (requests : List Request) (e : Event)
    (w : σ) : request player requests e w =
      ⟨e, Player.after player requests w, Player.told player requests⟩ := by
  cases player <;> rfl

namespace Entry

variable (player : Option (Player σ)) (rs : List Request)

lemma decisions_told : decisions (Player.told player rs) = [] := by
  cases player with
  | none => rfl
  | some p =>
    rw [decisions_eq_nil_iff]
    intro entry hentry
    obtain ⟨request, -, rfl⟩ := List.mem_map.1 hentry
    rfl

lemma decisions_cons_told (entry : Entry σ) (trace : List (Entry σ)) :
    decisions (entry :: (Player.told player rs ++ trace)) =
      decisions [entry] ++ decisions trace := by
  rw [← List.singleton_append, decisions_append, decisions_append, decisions_told, List.nil_append]

lemma decisions_cons_told_nil (entry : Entry σ) :
    decisions (entry :: Player.told player rs) = decisions [entry] := by
  have h := decisions_cons_told player rs entry []
  rw [List.append_nil] at h
  exact h.trans (List.append_nil _)

lemma requests_told : requests (Player.told player rs) = player.elim [] fun _ => rs := by
  cases player with
  | none => rfl
  | some p => exact requests_map_requested rs

end Entry

/-! ## Walks -/

/-- The rules are walked in order up to and including the first final decision.  After every answer
the player is told what there is to tell, and the next rule is reached in the state after that. -/
inductive WarnedWalk (concern : Concern σ) (final : Rule σ → Prop) (player : Option (Player σ)) :
    List (Rule σ) → σ → List (Entry σ) → σ → Prop
  | nil (w : σ) : WarnedWalk concern final player [] w [] w
  | skip {rule : Rule σ} {rules : List (Rule σ)} {w w' : σ} {trace : List (Entry σ)}
      (hskip : rule.filter = none ∨ ∀ query, ¬ concern rule w query)
      (hrest : WarnedWalk concern final player rules w trace w') :
      WarnedWalk concern final player (rule :: rules) w trace w'
  | stop {rule : Rule σ} (rules : List (Rule σ)) {w w₁ : σ} {query : Query} {answer : Answer}
      (hask : Asks concern rule w query answer w₁) (hanswer : answer.isDecisive = true)
      (hfinal : final rule) :
      WarnedWalk concern final player (rule :: rules) w
        (.consulted rule query answer :: Player.told player (rule.decision answer).warnings)
        (Player.after player (rule.decision answer).warnings w₁)
  | go {rule : Rule σ} {rules : List (Rule σ)} {w w₁ w' : σ} {trace : List (Entry σ)}
      {query : Query} {answer : Answer} (hask : Asks concern rule w query answer w₁)
      (hgo : ¬ (answer.isDecisive = true ∧ final rule))
      (hrest : WarnedWalk concern final player rules
        (Player.after player (rule.decision answer).warnings w₁) trace w') :
      WarnedWalk concern final player (rule :: rules) w
        (.consulted rule query answer ::
          (Player.told player (rule.decision answer).warnings ++ trace)) w'

namespace WarnedWalk

variable {concern : Concern σ} {final : Rule σ → Prop} {player : Option (Player σ)}
  {rules : List (Rule σ)} {w w' : σ} {trace : List (Entry σ)}

lemma flatMap_warnings_consulted (rule : Rule σ) (query : Query) (answer : Answer) :
    (Entry.decisions [.consulted rule query answer]).flatMap Decision.warnings =
      (rule.decision answer).warnings := by
  rw [Entry.decisions_consulted]
  cases answer with
  | abstain => rfl
  | _ => exact List.append_nil _

/-- **The requests of a walk are the warnings of its decisions,** in order, if there is a player. -/
theorem requests_eq (h : WarnedWalk concern final player rules w trace w') :
    Entry.requests trace =
      player.elim [] fun _ => (Entry.decisions trace).flatMap Decision.warnings := by
  induction h with
  | nil w => cases player <;> rfl
  | skip hskip hrest ih => exact ih
  | @stop rule rules w w₁ query answer hask hanswer hfinal =>
    have hwarned := flatMap_warnings_consulted rule query answer
    rw [Entry.decisions_cons_told_nil, hwarned]
    exact Entry.requests_told player (rule.decision answer).warnings
  | @go rule rules w w₁ w' trace query answer hask hgo hrest ih =>
    have hwarned := flatMap_warnings_consulted rule query answer
    rw [Entry.decisions_cons_told, List.flatMap_append, hwarned]
    refine (Entry.requests_append _ _).trans ?_
    rw [ih, Entry.requests_told]
    cases player <;> rfl

end WarnedWalk

/-! ## Passes that warn -/

namespace Pass

variable {pass : Pass σ} {player : Option (Player σ)} {good : Event → Prop}
  {settle : Event → Decision → Event} {concern : Concern σ}

/-- When a rule has decided a good event, the pass settles the event, which stays good, and warns
the player. -/
structure Settles (pass : Pass σ) (player : Option (Player σ)) (good : Event → Prop)
    (settle : Event → Decision → Event) : Prop where
  good_settle : ∀ e d, good e → good (settle e d)
  react_eq : ∀ rule e w answer, answer.isDecisive = true → good e →
    pass.react rule (e.apply answer rule.message) w =
      .request player (rule.decision answer).warnings (settle e (rule.decision answer)) w

/-- An event after an answer; without a decision it is as it was. -/
def settled (settle : Event → Decision → Event) (rule : Rule σ) (answer : Answer) (e : Event) :
    Event :=
  if answer.isDecisive then settle e (rule.decision answer) else e

lemma settled_eq_foldl (settle : Event → Decision → Event) (rule : Rule σ) (query : Query)
    (answer : Answer) (e : Event) : settled settle rule answer e =
      (Entry.decisions [.consulted rule query answer]).foldl settle e := by
  rw [Entry.decisions_consulted, settled]
  split_ifs <;> rfl

namespace Settles

variable (h : pass.Settles player good settle)

include h

/-- One rule of a pass that warns. -/
lemma run_ask {rule : Rule σ} {filter : Filter σ} {w w₁ : σ} {query : Query} {answer : Answer}
    {e : Event} (rules : List (Rule σ)) (he : good e) (hselect : pass.select rule w = some query)
    (hfilter : rule.filter = some filter) (hask : filter.ask query w = (answer, w₁)) :
    let warned := Player.told player (rule.decision answer).warnings
    let w₂ := Player.after player (rule.decision answer).warnings w₁
    pass.run (rule :: rules) e w =
      if answer.isDecisive && pass.halts rule then
        ⟨settled settle rule answer e, w₂, .consulted rule query answer :: warned⟩
      else
        let rest := pass.run rules (settled settle rule answer e) w₂
        ⟨rest.event, rest.world, .consulted rule query answer :: (warned ++ rest.trace)⟩ := by
  rw [run, hselect]
  simp only [Rule.decide_spec rule query e w hfilter, hask]
  cases hdecisive : answer.isDecisive with
  | false =>
    obtain rfl : answer = .abstain := by cases answer <;> cases hdecisive; rfl
    have hnone : Player.told player (rule.decision .abstain).warnings = [] ∧
        Player.after player (rule.decision .abstain).warnings w₁ = w₁ := by
      cases player <;> exact ⟨rfl, rfl⟩
    rw [hnone.1, hnone.2]
    rfl
  | true =>
    have hsettled : settled settle rule answer e = settle e (rule.decision answer) :=
      if_pos hdecisive
    simp only [Outcome.andThen, h.react_eq rule e w₁ answer hdecisive he, Outcome.request_eq,
      hsettled]
    cases pass.halts rule <;> simp

variable (hselect : ∀ rule w query, pass.select rule w = some query ↔ concern rule w query)

include hselect

/-- **A pass that warns makes a warned walk, and settles the event by its decisions in order.** -/
theorem run (rules : List (Rule σ)) {e : Event} (he : good e) (w : σ) :
    WarnedWalk concern (fun rule => pass.halts rule = true) player rules w
        (pass.run rules e w).trace (pass.run rules e w).world ∧
      (pass.run rules e w).event =
        (Entry.decisions (pass.run rules e w).trace).foldl settle e := by
  induction rules generalizing e w with
  | nil => exact ⟨.nil w, rfl⟩
  | cons rule rules ih =>
    rcases pass.skips_or_asks rule w with hskip | ⟨filter, query, hfilter, hquery⟩
    · obtain ⟨hwalk, hevent⟩ := ih he w
      rw [run_skip rules e hskip]
      refine ⟨.skip (hskip.imp_right fun hnone query hconcern => ?_) hwalk, hevent⟩
      rw [← hselect, hnone] at hconcern
      cases hconcern
    · obtain ⟨answer, w₁, hask⟩ : ∃ answer w₁, filter.ask query w = (answer, w₁) := ⟨_, _, rfl⟩
      have hasks : Asks concern rule w query answer w₁ :=
        ⟨(hselect rule w query).1 hquery, filter, hfilter, hask⟩
      have hgood : good (settled settle rule answer e) := by
        unfold settled
        split_ifs
        exacts [h.good_settle _ _ he, he]
      rw [h.run_ask rules he hquery hfilter hask, settled_eq_foldl settle rule query]
      split_ifs with hstop
      · rw [Bool.and_eq_true] at hstop
        refine ⟨.stop rules hasks hstop.1 hstop.2, ?_⟩
        dsimp only
        rw [Entry.decisions_cons_told_nil]
      · rw [Bool.and_eq_true] at hstop
        rw [← settled_eq_foldl settle rule query]
        obtain ⟨hwalk, hevent⟩ := ih hgood (Player.after player (rule.decision answer).warnings w₁)
        refine ⟨.go hasks hstop hwalk, ?_⟩
        dsimp only
        rw [hevent, Entry.decisions_cons_told, List.foldl_append,
          ← settled_eq_foldl settle rule query]

end Settles

end Pass

end RegionRules
