import RegionRules.Proofs.Region.Frozen
import RegionRules.Region.Blocks

/-!
# What unions remember

A union keeps the strategy of its first listing, whatever the state was then.  So listing regions
adds to a memo only what their unions select in some state (`Memo.Keeps.settle`).  Honest regions
select the same in every state, and this cannot be told from selecting it anew: with a memo that has
nothing else, what a region lists depends on the state of the listing alone
(`Memo.Agrees.cursor_eq`).

Ids have to mean something for this.  A *register* says which children the union with an id has, the
ids among them aside, for copies of a union share its children and not their ids.
-/

set_option autoImplicit false

namespace RegionRules

variable {σ : Type}

/-- The children of the unions with ids, without the ids among them. -/
abbrev Register (σ : Type) := UnionId → Option (List (Region σ))

/-- The second register has at least the entries of the first. -/
def Register.Grows (register register' : Register σ) : Prop :=
  ∀ i children, register i = some children → register' i = some children

lemma Register.Grows.refl (register : Register σ) : register.Grows register := fun _ _ h => h

lemma Register.Grows.trans {register register' register'' : Register σ}
    (h : register.Grows register') (h' : register'.Grows register'') : register.Grows register'' :=
  fun i children hi => h' i children (h i children hi)

/-- Every union of the region, at any depth, that has an id has the children that the register
says. -/
def Region.IsRegistered (register : Register σ) : Region σ → Prop :=
  Throughout fun r => ∀ i children, r = .union (some i) children →
    register i = some (children.map bare)

lemma Region.IsRegistered.mono {register register' : Register σ} {r : Region σ}
    (hgrows : register.Grows register') (h : r.IsRegistered register) :
    r.IsRegistered register' :=
  Throughout.mono (fun _ h i children hr => hgrows i _ (h i children hr)) h

/-- Children whose tests and cursors are the same make the same chain. -/
lemma Region.cursorAll_congr {memo memo' : Memo} {s t : σ} {frozen frozen' : Bool}
    {rs : List (Region σ)} (h : ∀ r ∈ rs, r.checkBlockBounded s = r.checkBlockBounded t ∧
      r.cursor memo s frozen = r.cursor memo' t frozen') :
    cursorAll memo s frozen rs = cursorAll memo' t frozen' rs := by
  induction rs with
  | nil => rfl
  | cons r rs ih =>
    rw [List.forall_mem_cons] at h
    rw [cursorAll, cursorAll, h.1.1, h.1.2, ih h.2]

/-- In every state, all unions of the region select a strategy that is fit for their children. -/
def Region.SelectsFit (fit : List (Region σ) → Strategy → Prop) : Region σ → Prop :=
  Throughout fun r => ∀ id children, r = .union id children →
    ∀ s, fit (children.map bare) (.select s children)

/-- Honest regions select the same strategies in every state. -/
lemma Region.IsHonest.selectsFit {r : Region σ} (h : r.IsHonest) :
    r.SelectsFit fun children strategy => ∀ s, strategy = Strategy.select s children := by
  induction h with
  | intro r here part ih =>
    refine .intro r ?_ ih
    rintro id children rfl s t
    rw [Region.select_bare]
    exact Region.select_congr (fun r hr => part r (.child id hr)) s t

namespace Memo

variable {register : Register σ} {memo : Memo}

/-- What the memo has for a union is fit for its children. -/
def Keeps (fit : List (Region σ) → Strategy → Prop) (register : Register σ) (memo : Memo) : Prop :=
  ∀ i strategy, memo[i]? = some strategy →
    ∃ children, register i = some children ∧ fit children strategy

/-- What the memo has is what the union selects, in every state. -/
def Agrees (register : Register σ) (memo : Memo) : Prop :=
  ∀ i strategy, memo[i]? = some strategy →
    ∃ children, register i = some children ∧ ∀ s, strategy = Strategy.select s children

lemma strategy_empty (s : σ) (id : Option UnionId) (children : List (Region σ)) :
    strategy ∅ s id children = .select s children := by
  cases id <;> simp [strategy, remembered?]

lemma strategy_remember (memo : Memo) (s : σ) (i : UnionId) (strategy : Strategy)
    (children : List (Region σ)) :
    (memo.remember (some i) strategy).strategy s (some i) children = strategy := by
  simp [Memo.strategy, remember, remembered?]

/-! ## Memos that keep what is fit -/

namespace Keeps

variable {fit fit' : List (Region σ) → Strategy → Prop}

lemma empty : Keeps fit register ∅ := by
  intro i strategy h
  simp at h

lemma mono {register' : Register σ} (hgrows : register.Grows register')
    (h : memo.Keeps fit register) : memo.Keeps fit register' := by
  intro i strategy hi
  obtain ⟨children, hregister, hfit⟩ := h i strategy hi
  exact ⟨children, hgrows i children hregister, hfit⟩

lemma weaken (hfit : ∀ children strategy, fit children strategy → fit' children strategy)
    (h : memo.Keeps fit register) : memo.Keeps fit' register := fun i strategy hi =>
  (h i strategy hi).imp fun children h => ⟨h.1, hfit children strategy h.2⟩

lemma insert {i : UnionId} {strategy : Strategy} {children : List (Region σ)}
    (h : memo.Keeps fit register) (hregister : register i = some children)
    (hfit : fit children strategy) : Keeps fit register (memo.insert i strategy) := by
  intro j strategy' hj
  rw [Std.HashMap.getElem?_insert] at hj
  split_ifs at hj with hij
  · rw [beq_iff_eq] at hij
    rw [← hij, ← Option.some_inj.1 hj]
    exact ⟨children, hregister, hfit⟩
  · exact h j strategy' hj

section Union

variable {id : Option UnionId} {children : List (Region σ)} (h : memo.Keeps fit register)
  (hregistered : Region.IsRegistered register (.union id children))

include h hregistered

/-- A union goes by a strategy that is fit, if the one that it would select is. -/
lemma fit_strategy {s : σ} (hselect : fit (children.map Region.bare) (.select s children)) :
    fit (children.map Region.bare) (memo.strategy s id children) := by
  rw [strategy]
  cases id with
  | none => exact hselect
  | some i =>
    cases hmemo : memo[i]? with
    | none => rwa [remembered?, Option.bind_some, hmemo, Option.getD_none]
    | some strategy =>
      obtain ⟨remembered, hremembered, hfit⟩ := h i strategy hmemo
      rw [hregistered.here i children rfl, Option.some_inj] at hremembered
      rwa [remembered?, Option.bind_some, hmemo, Option.getD_some, hremembered]

lemma remember {strategy : Strategy} (hfit : fit (children.map Region.bare) strategy) :
    Keeps fit register (memo.remember id strategy) := by
  cases id with
  | none => exact h
  | some i => exact h.insert (hregistered.here i children rfl) hfit

end Union

/-- **Listing a region adds to a memo only what is fit.** -/
theorem settle {r : Region σ} (h : memo.Keeps fit register) (hselects : r.SelectsFit fit)
    (hregistered : r.IsRegistered register) (s : σ) (frozen : Bool) :
    Keeps fit register (r.settle s frozen memo) := by
  induction r generalizing memo frozen with
  | union id children ih =>
    have hall {rs : List (Region σ)} (hrs : rs ⊆ children) {memo : Memo}
        (h : memo.Keeps fit register) :
        Keeps fit register (Region.settleAll s frozen memo rs) := by
      induction rs generalizing memo with
      | nil => exact h
      | cons r rs ihrs =>
        rw [List.cons_subset] at hrs
        exact ihrs hrs.2 (ih r hrs.1 h (hselects.child hrs.1) (hregistered.child hrs.1) frozen)
    -- A union of static children may remember; a frozen form with others is new each time.
    have hremember : Keeps fit register (memo.remember (Region.partsId id children)
        (memo.strategy s (Region.partsId id children) (Region.parts s children))) := by
      unfold Region.partsId Region.parts
      split_ifs
      · exact h.remember hregistered (h.fit_strategy hregistered (hselects.here id children rfl s))
      · exact h
    rw [Region.settle]
    split_ifs
    · dsimp only
      split
      · exact hremember
      · exact hall (List.Subset.refl _) hremember
    · exact h
  | static inner ih =>
    exact ih h (hselects.part (.marked inner)) (hregistered.part (.marked inner)) false
  | dynamic resolve ih =>
    exact ih s h (hselects.part (.resolved resolve s)) (hregistered.part (.resolved resolve s)) true
  | _ => exact h

end Keeps

/-! ## Memos that agree with selection -/

namespace Agrees

section Union

variable {id : Option UnionId} {children : List (Region σ)} (h : memo.Agrees register)
  (hregistered : Region.IsRegistered register (.union id children))

include h hregistered

lemma strategy_eq (s : σ) : memo.strategy s id children = .select s children := by
  have hkeeps : memo.Keeps (fun children strategy => strategy = .select s children) register :=
    Keeps.weaken (fun _ _ hselect => hselect s) h
  have hfit := hkeeps.fit_strategy hregistered (Region.select_bare s children).symm
  rwa [Region.select_bare] at hfit

/-- A union takes the strategy that it selects, frozen or not. -/
lemma strategy_parts_eq (s : σ) :
    memo.strategy s (Region.partsId id children) (Region.parts s children) =
      .select s (Region.parts s children) := by
  unfold Region.partsId Region.parts
  split_ifs
  · exact h.strategy_eq hregistered s
  · rfl

end Union

/-- **What a region lists does not depend on the memo.** -/
theorem cursor_eq {r : Region σ} (h : memo.Agrees register) (hregistered : r.IsRegistered register)
    (s : σ) (frozen : Bool) : r.cursor memo s frozen = r.cursor ∅ s frozen := by
  induction r generalizing frozen with
  | union id children ih =>
    have hall : Region.cursorAll memo s frozen children = Region.cursorAll ∅ s frozen children :=
      Region.cursorAll_congr fun r hr => ⟨rfl, ih r hr (hregistered.child hr) frozen⟩
    rw [Region.cursor, Region.cursor, h.strategy_parts_eq hregistered s,
      strategy_empty, hall]
  | static inner ih =>
    rw [Region.cursor, Region.cursor, ih (hregistered.part (.marked inner))]
  | dynamic resolve ih =>
    rw [Region.cursor, Region.cursor, ih s (hregistered.part (.resolved resolve s))]
  | _ => rfl

end Agrees

end Memo
end RegionRules
