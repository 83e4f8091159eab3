import RegionRules.Proofs.Dispatch.Regimes
import RegionRules.Proofs.Dispatch.Warnings

/-!
# Uses of blocks

A right-click on a block has two halves, and the rules on use decide the block's.  A denial spares
the item: it is turned into a denial of the block and an allowance for the item.  So the item half
has a memory.  Once a rule has denied, later rules that allow leave the item allowed, while without
a denial they only lift the one that the click may have come with.

How a click stands in the end is read off the list of decisions (`Interact.StandsAfter`), though it
is settled one decision at a time (`Interact.standsAfter_foldl`).
-/

set_option autoImplicit false

namespace RegionRules

/-! ## Clicks after decisions -/

namespace Interact

/-- A click after one more decision.  A denial is for the block alone. -/
def settle (i : Interact) (d : Decision) : Interact :=
  if d.answer = .deny then { i with useItem := .allow, useBlock := .deny } else i.setCancelled false

/-- The click `i'` is the click `i` after the decisions, by the last one and by whether any of them
was a denial. -/
structure StandsAfter (i : Interact) (decisions : List Decision) (i' : Interact) : Prop where
  action_eq : i'.action = i.action
  clicked_eq : i'.clicked = i.clicked
  of_nil : decisions = [] → i' = i
  of_deny : ∀ last, decisions.getLast? = some last → last.answer = .deny →
    i'.useBlock = .deny ∧ i'.useItem = .allow
  of_allow : ∀ last, decisions.getLast? = some last → last.answer = .allow →
    i'.useBlock ≠ .deny ∧
      i'.useItem = if ∃ d ∈ decisions, d.answer = .deny then .allow else i.useItem.lifted
  not_both : decisions ≠ [] → ¬ (i'.useBlock = .deny ∧ i'.useItem = .deny)

variable (i : Interact) (d : Decision) (decisions : List Decision)

lemma lifted_lifted (result : UseResult) : result.lifted.lifted = result.lifted := by
  cases result <;> rfl

lemma lifted_ne_deny (result : UseResult) : result.lifted ≠ .deny := by
  cases result <;> exact nofun

/-- Seen without denials, the item half remembers a denial as an allowance. -/
lemma lifted_useItem_foldl : (decisions.foldl settle i).useItem.lifted =
    if ∃ d ∈ decisions, d.answer = .deny then .allow else i.useItem.lifted := by
  induction decisions generalizing i with
  | nil => simp
  | cons d decisions ih =>
    have hone : (i.settle d).useItem.lifted =
        if d.answer = .deny then .allow else i.useItem.lifted := by
      unfold settle
      split_ifs
      exacts [rfl, lifted_lifted _]
    rw [List.foldl_cons, ih, hone]
    by_cases hd : d.answer = .deny <;> simp [hd]

lemma foldl_settle_unchanged : (decisions.foldl settle i).action = i.action ∧
    (decisions.foldl settle i).clicked = i.clicked := by
  induction decisions generalizing i with
  | nil => exact ⟨rfl, rfl⟩
  | cons d decisions ih =>
    have hone : (i.settle d).action = i.action ∧ (i.settle d).clicked = i.clicked := by
      unfold settle
      split_ifs
      exacts [⟨rfl, rfl⟩, ⟨rfl, rfl⟩]
    exact ⟨(ih _).1.trans hone.1, (ih _).2.trans hone.2⟩

/-- **Settled by one decision after the other, a click stands as the whole list says.** -/
theorem standsAfter_foldl : i.StandsAfter decisions (decisions.foldl settle i) := by
  obtain ⟨haction, hclicked⟩ := foldl_settle_unchanged i decisions
  refine ⟨haction, hclicked, fun hnil => by rw [hnil, List.foldl_nil], ?_, ?_, ?_⟩
  · intro last hlast hdeny
    obtain ⟨before, rfl⟩ := List.getLast?_eq_some_iff.1 hlast
    rw [List.foldl_append, List.foldl_cons, List.foldl_nil, settle, if_pos hdeny]
    exact ⟨rfl, rfl⟩
  · intro last hlast hallow
    obtain ⟨before, rfl⟩ := List.getLast?_eq_some_iff.1 hlast
    have hmemory := lifted_useItem_foldl i before
    have hlater : (∃ d ∈ before ++ [last], d.answer = .deny) ↔
        ∃ d ∈ before, d.answer = .deny := by
      simp [or_and_right, exists_or, hallow]
    rw [List.foldl_append, List.foldl_cons, List.foldl_nil, settle, if_neg (by simp [hallow])]
    simp only [hlater]
    exact ⟨lifted_ne_deny _, hmemory⟩
  · intro hne hboth
    obtain ⟨before, last, rfl⟩ := List.eq_nil_or_concat' decisions |>.resolve_left hne
    rw [List.foldl_append, List.foldl_cons, List.foldl_nil, settle] at hboth
    split_ifs at hboth with hdeny
    · cases hboth.2
    · exact lifted_ne_deny _ hboth.1

end Interact

/-! ## The pass for uses -/

/-- A click after one more decision; other events are not settled. -/
def Event.settleClick (e : Event) (d : Decision) : Event :=
  match e with
  | .interact i => .interact (i.settle d)
  | e => e

lemma Event.foldl_settleClick (i : Interact) (decisions : List Decision) :
    decisions.foldl settleClick (.interact i) = .interact (decisions.foldl Interact.settle i) := by
  induction decisions generalizing i with
  | nil => rfl
  | cons d decisions ih => exact ih _

namespace Dispatcher

variable {σ : Type}

/-- The pass for uses of a block by a player. -/
def usePass (d : Dispatcher σ) (p : Player σ) (block : Block) (query : Query) : Pass σ where
  select := blockQuery block.position query
  react := allowItemUse (some p)
  halts := d.halts

lemma settles_usePass (d : Dispatcher σ) (p : Player σ) (block : Block) (query : Query) :
    (usePass d p block query).Settles (some p) (fun e => ∃ i, e = .interact i)
      Event.settleClick := by
  refine ⟨?_, ?_⟩
  · rintro e decision ⟨i, rfl⟩
    exact ⟨_, rfl⟩
  · rintro rule e w answer hanswer ⟨i, rfl⟩
    cases answer with
    | abstain => cases hanswer
    | deny => rfl
    | allow =>
      have hopen : (i.setCancelled false).isCancelled = false :=
        beq_false_of_ne (Interact.lifted_ne_deny i.useBlock)
      change allowItemUse (some p) rule (.interact (i.setCancelled false)) w = _
      rw [allowItemUse, hopen, if_neg Bool.false_ne_true]
      rfl

/-- The decisions of the rule end a use. -/
def EndsUse (d : Dispatcher σ) (rule : Rule σ) : Prop :=
  d.usesPriority = true ∨ rule.priorityAware = true

/-- A use that is not denied yet is put to the rules on use. -/
lemma checkUse_eq_run (d : Dispatcher σ) (rules : List (Rule σ)) (hrules : d.rules = .ofList rules)
    (p : Player σ) (w : σ) (hactive : p.canInteract w = true) (click : Interact) (block : Block)
    (haction : click.action = .rightClickBlock) (hclicked : click.clicked = some block)
    (hopen : click.useBlock ≠ .deny) :
    d.checkUse (some p) click w =
      (usePass d p block
        { kind := .interact, player := some (p.state w), block := some block }).run
        (rules.filter (·.scope = .use)) (.interact click) w := by
  have hcancelled : (Event.interact click).isCancelled = false := beq_false_of_ne hopen
  have hgate : ((Event.interact click).isCancelled || click.action != .rightClickBlock) =
      false := by
    rw [hcancelled, haction]
    rfl
  unfold checkUse
  dsimp only
  rw [hgate, if_neg Bool.false_ne_true, hclicked]
  dsimp only
  unfold handleUse
  rw [active?_eq_some hactive, hrules, RuleSet.ofScope_ofList]
  rfl

/-- **Rules on use deny the block and spare the item.**  Let a player who can interact right-click a
block whose use is not denied yet.  The rules on use whose regions have the block are asked in
order, up to and including the first that decides and ends the use.  The click stands after their
decisions, and the player is warned with the message of every denial that has one. -/
theorem checkUse_standsAfter (d : Dispatcher σ) (rules : List (Rule σ))
    (hrules : d.rules = .ofList rules) (p : Player σ) (w : σ) (hactive : p.canInteract w = true)
    (click : Interact) (block : Block) (haction : click.action = .rightClickBlock)
    (hclicked : click.clicked = some block) (hopen : click.useBlock ≠ .deny) :
    let o := d.checkUse (some p) click w
    let query : Query := { kind := .interact, player := some (p.state w), block := some block }
    WarnedWalk (BlockConcern block.position query) d.EndsUse (some p)
        (rules.filter (·.scope = .use)) w o.trace o.world ∧
      (∃ click', o.event = .interact click' ∧
        click.StandsAfter (Entry.decisions o.trace) click') ∧
      Entry.requests o.trace = (Entry.decisions o.trace).flatMap Decision.warnings := by
  intro o query
  have ho := checkUse_eq_run d rules hrules p w hactive click block haction hclicked hopen
  obtain ⟨hwalk, hevent⟩ := (settles_usePass d p block query).run
    (fun _ _ _ => blockQuery_eq_some) (rules.filter (·.scope = .use)) ⟨click, rfl⟩ w
  rw [← ho] at hwalk hevent
  rw [Event.foldl_settleClick] at hevent
  have hends : (fun rule => (usePass d p block query).halts rule = true) = d.EndsUse := by
    funext rule
    exact propext (Bool.or_eq_true _ _ ▸ Iff.rfl)
  rw [hends] at hwalk
  exact ⟨hwalk, ⟨_, hevent, click.standsAfter_foldl _⟩, hwalk.requests_eq⟩

section Doors

/-- Denies and allows in turn; the state counts the questions. -/
def fickleFilter : Filter ℕ where
  name := "fickle"
  ask _ asked := (if asked % 2 = 0 then .deny else .allow, asked + 1)

/-- Two rules on use that decide, the second one for good, and one that is not reached. -/
def doors : List (Rule ℕ) :=
  [{ scope := .use, region := .everywhere, filter := some fickleFilter, message := some "closed" },
    { scope := .blockBreak, region := .everywhere, filter := some fickleFilter },
    { scope := .use, region := .everywhere, filter := some fickleFilter, priorityAware := true },
    { scope := .use, region := .everywhere, filter := some fickleFilter, message := some "late" }]

/-- A right-click on a block with an item that may not be used. -/
def knock : Interact where
  action := .rightClickBlock
  clicked := some ⟨⟨0, 0, 0⟩, .air⟩
  useItem := .deny

/-- The first rule denies the block and so allows the item, and the second one leaves it allowed. -/
theorem knock_standsAfter :
    let d : Dispatcher ℕ := ⟨.ofList doors, false, true, none⟩
    let o := d.checkUse (some visitor) knock 0
    let query : Query :=
      { kind := .interact, player := some (visitor.state 0), block := some ⟨⟨0, 0, 0⟩, .air⟩ }
    (visitor.canInteract 0 = true ∧ knock.action = .rightClickBlock ∧ knock.useBlock ≠ .deny) ∧
      (WarnedWalk (BlockConcern ⟨0, 0, 0⟩ query) d.EndsUse (some visitor)
          (doors.filter (·.scope = .use)) 0 o.trace o.world ∧
        (∃ click', o.event = .interact click' ∧
          knock.StandsAfter (Entry.decisions o.trace) click') ∧
        Entry.requests o.trace = (Entry.decisions o.trace).flatMap Decision.warnings) ∧
      Entry.decisions o.trace = [⟨.deny, some "closed"⟩, ⟨.allow, none⟩] ∧
      Entry.requests o.trace = [.warn "closed"] ∧
      o.event = .interact { knock with useItem := .allow, useBlock := .default } := by
  intro d o query
  have hspec := checkUse_standsAfter d doors rfl visitor 0 rfl knock ⟨⟨0, 0, 0⟩, .air⟩ rfl rfl nofun
  have ho : o = (usePass d visitor ⟨⟨0, 0, 0⟩, .air⟩ query).run (doors.filter (·.scope = .use))
      (.interact knock) 0 := checkUse_eq_run d doors rfl visitor 0 rfl knock _ rfl rfl nofun
  refine ⟨⟨rfl, rfl, nofun⟩, hspec, ?_⟩
  rw [ho]
  exact ⟨rfl, rfl, rfl⟩

end Doors

end Dispatcher
end RegionRules
