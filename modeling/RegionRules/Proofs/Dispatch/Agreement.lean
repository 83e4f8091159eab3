import RegionRules.Proofs.Dispatch.Bystanders
import RegionRules.Proofs.Dispatch.Occasions

/-!
# Where the regimes agree

The priority regime walks all rules at once, the legacy regime the rules of each scope by
themselves.  A walk takes no notice of rules that it does not select, nor of those without a filter,
so it may as well leave them out (`Pass.run_filter`), and of a rule that it does select only the
query, the reaction and the halting test matter (`Pass.run_congr`).

If all rules are priority-aware, a decision ends a walk in either regime.  What is left to tell the
regimes apart is an occasion that concerns rules of several scopes, or a block change whose old and
new block are not in one place; on all others they do the same (`handle_eq_of_aware`).
-/

set_option autoImplicit false

namespace RegionRules

variable {σ : Type}

/-! ## Plain occasions -/

/-- Rules of at most one scope can be concerned, about blocks in one place: there are not both rules
on entry and rules on exit for a move, and a block change breaks or places, but does not do both,
where it is, and no rule on placing against another block has one to be asked about. -/
def Occasion.IsPlain (rules : List (Rule σ)) : Occasion σ → Prop
  | .enterLeave .. | .coarseMove .. | .flagPickup .. =>
    (∀ rule ∈ rules, rule.scope ≠ .playerEnter) ∨ ∀ rule ∈ rules, rule.scope ≠ .playerLeave
  | .blockTransform change _ =>
    change.old.position = change.new.position ∧ change.isBreak ≠ change.isPlace ∧
      ((∀ rule ∈ rules, rule.scope ≠ .blockPlaceAgainst) ∨ change.cause.against? = none)
  | _ => True

/-! ## Walks that come to the same -/

namespace Pass

variable {pass pass' : Pass σ} {rules : List (Rule σ)}

/-- Passes that treat the rules alike do the same. -/
theorem run_congr (hselect : ∀ rule ∈ rules, pass.select rule = pass'.select rule)
    (hreact : ∀ rule ∈ rules, pass.react rule = pass'.react rule)
    (hhalts : ∀ rule ∈ rules, pass.halts rule = pass'.halts rule) (e : Event) (w : σ) :
    pass.run rules e w = pass'.run rules e w := by
  induction rules generalizing e w with
  | nil => rfl
  | cons rule rules ih =>
    rw [List.forall_mem_cons] at hselect hreact hhalts
    have hrest : pass.run rules = pass'.run rules :=
      funext₂ fun e w => ih hselect.2 hreact.2 hhalts.2 e w
    rw [run, run, hselect.1, hreact.1, hhalts.1, hrest]

/-- A pass may leave out rules that it never selects, and rules that have no filter. -/
theorem run_filter {keep : Rule σ → Bool}
    (h : ∀ rule ∈ rules, keep rule = false → ∀ w, rule.filter = none ∨ pass.select rule w = none)
    (e : Event) (w : σ) : pass.run (rules.filter keep) e w = pass.run rules e w := by
  induction rules generalizing e w with
  | nil => rfl
  | cons rule rules ih =>
    rw [List.forall_mem_cons] at h
    have hrest : pass.run (rules.filter keep) = pass.run rules :=
      funext₂ fun e w => ih h.2 e w
    cases hkeep : keep rule with
    | true =>
      rw [List.filter_cons_of_pos hkeep, run, run, hrest]
    | false =>
      rw [List.filter_cons_of_neg (Bool.not_eq_true _ ▸ hkeep), hrest,
        run_skip rules e (h.1 hkeep w)]

end Pass

lemma Outcome.andThen_unchanged (o : Outcome σ) : o.andThen .unchanged = o := by
  rw [andThen, unchanged, List.append_nil]

namespace Dispatcher

section Aware

variable {rules : List (Rule σ)} (haware : ∀ rule ∈ rules, rule.priorityAware = true)
  {d d' : Dispatcher σ} (hd : d.rules = .ofList rules) (hd' : d'.rules = .ofList rules)

/-! ## Handlers of one scope

Their walks end at a decision of a priority-aware rule in both regimes. -/

include haware hd hd'

lemma walksAlike_of_aware (scope : Scope) : d.WalksAlike d' scope := by
  intro select react e w
  rw [hd, hd']
  refine Pass.run_congr ?_ ?_ ?_ e w
  · exact fun _ _ => rfl
  · exact fun _ _ => rfl
  · intro rule hrule
    dsimp only [halts]
    rw [haware rule (RuleSet.ofScope_subset rules scope hrule), Bool.or_true, Bool.or_true]

lemma handle_congr (occasion : Occasion σ) (hone : occasion.EndsByHalts) (w : σ) :
    d.handle occasion w = d'.handle occasion w :=
  handle_eq_of_walksAlike true hone (fun scope _ => walksAlike_of_aware haware hd hd' scope) w

end Aware

/-! ## Moves and block changes

Here the regimes walk different lists: all rules, or those of one scope. -/

section Scopes

variable {rules : List (Rule σ)} (haware : ∀ rule ∈ rules, rule.priorityAware = true)

include haware

/-- A walk through all rules is a walk through those of a scope, if only these are selected. -/
lemma run_eq_run_ofScope {select select' : Rule σ → σ → Option Query} {scope : Scope}
    (hother : ∀ rule ∈ rules, rule.scope ≠ scope → ∀ w, select rule w = none)
    (hselect : ∀ rule ∈ rules, rule.scope = scope → select rule = select' rule)
    (react : Rule σ → Event → σ → Outcome σ) (e : Event) (w : σ) :
    { select, react, halts := fun _ => true : Pass σ }.run rules e w =
      { select := select', react, halts := (·.priorityAware) : Pass σ }.run
        ((RuleSet.ofList rules).ofScope scope) e w := by
  have hkeep : ∀ rule ∈ rules, decide (rule.scope = scope) = false →
      ∀ w, rule.filter = none ∨ select rule w = none :=
    fun rule hrule hscope w => .inr (hother rule hrule (of_decide_eq_false hscope) w)
  rw [RuleSet.ofScope_ofList, ← Pass.run_filter hkeep]
  refine Pass.run_congr ?_ ?_ ?_ e w
  · intro rule hrule
    obtain ⟨hrule, hscope⟩ := List.mem_filter.1 hrule
    exact hselect rule hrule (of_decide_eq_true hscope)
  · exact fun _ _ => rfl
  · exact fun rule hrule => (haware rule (List.mem_of_mem_filter hrule)).symm

/-- On rules that are not both on entry and on exit, the regimes walk a move alike. -/
lemma run_movePass_eq (hplain : (∀ rule ∈ rules, rule.scope ≠ .playerEnter) ∨
      ∀ rule ∈ rules, rule.scope ≠ .playerLeave)
    (query : Query) (origin : Option Vec3) (target : Vec3) (e : Event) (w : σ) :
    (movePass query origin target fun _ => true).run rules e w =
      ((movePass query origin target (·.priorityAware)).run
        ((RuleSet.ofList rules).ofScope .playerEnter) e w).andThen
        ((movePass query origin target (·.priorityAware)).run
          ((RuleSet.ofList rules).ofScope .playerLeave)) := by
  have hnone {scope : Scope} (h : ∀ rule ∈ rules, rule.scope ≠ scope) :
      (RuleSet.ofList rules).ofScope scope = [] := by
    rw [RuleSet.ofScope_ofList, List.filter_eq_nil_iff]
    exact fun rule hrule hscope => h rule hrule (of_decide_eq_true hscope)
  have hskip {rule : Rule σ} (henter : rule.scope ≠ .playerEnter)
      (hleave : rule.scope ≠ .playerLeave) (w : σ) :
      (movePass query origin target fun _ => true).select rule w = none :=
    movePass_select_eq_none _ henter hleave w
  have hnil (pass : Pass σ) : pass.run [] = .unchanged := rfl
  rcases hplain with hno | hno
  · rw [hnone hno, hnil, Outcome.unchanged_andThen]
    exact run_eq_run_ofScope haware (fun rule hrule hscope w => hskip (hno rule hrule) hscope w)
      (fun _ _ _ => rfl) _ e w
  · rw [hnone hno, hnil, Outcome.andThen_unchanged]
    exact run_eq_run_ofScope haware (fun rule hrule hscope w => hskip hscope (hno rule hrule) w)
      (fun _ _ _ => rfl) _ e w

variable (owned : Bool) (height : Option Int32)

/-- **On plain moves the regimes do the same.** -/
lemma checkEnterLeave_eq (hplain : (∀ rule ∈ rules, rule.scope ≠ .playerEnter) ∨
      ∀ rule ∈ rules, rule.scope ≠ .playerLeave)
    (player : Option (Player σ)) (origin : Option Vec3) (target : Vec3) (e : Event) (w : σ) :
    checkEnterLeave ⟨.ofList rules, true, owned, height⟩ player origin target e w =
      checkEnterLeave ⟨.ofList rules, false, owned, height⟩ player origin target e w := by
  cases he : e.isCancelled with
  | true =>
    unfold checkEnterLeave
    rw [he]
    rfl
  | false =>
    cases player with
    | none =>
      unfold checkEnterLeave
      rw [he]
      rfl
    | some p =>
      by_cases hactive : p.canInteract w = true
      · rw [checkEnterLeave_of_priority _ rfl origin target hactive he,
          checkEnterLeave_of_legacy _ rfl origin target hactive he]
        exact run_movePass_eq haware hplain _ origin target e w
      · rw [Bool.not_eq_true] at hactive
        rw [checkEnterLeave_eq_unchanged _ hactive, checkEnterLeave_eq_unchanged _ hactive]

variable {change : BlockTransform} (hone : change.isBreak ≠ change.isPlace)

omit haware in
include hone in
/-- What a change that only breaks or only places concerns is of the scope of the legacy regime. -/
lemma scope_eq_legacyScope {rule : Rule σ} {actor : Option PlayerState} {w : σ} {query : Query}
    (hagainst : rule.scope ≠ .blockPlaceAgainst ∨ change.cause.against? = none)
    (h : ChangeConcern actor change rule w query) : rule.scope = change.legacyScope := by
  unfold BlockTransform.legacyScope
  rcases h with ⟨hscope, hbreak, -⟩ | ⟨hscope, hplace, -⟩ | ⟨block, hscope, hcause, -⟩
  · rw [hbreak] at hone
    rw [Bool.eq_false_iff.2 hone.symm, hscope, if_neg Bool.false_ne_true]
  · rw [hplace, hscope, if_pos rfl]
  · rcases hagainst with hagainst | hagainst
    · exact absurd hscope hagainst
    · rw [hagainst] at hcause
      cases hcause

include hone in
/-- On a change that only breaks or only places, in one place, the regimes walk alike. -/
lemma run_changePass_eq (hplace : change.old.position = change.new.position)
    (hagainst : (∀ rule ∈ rules, rule.scope ≠ .blockPlaceAgainst) ∨ change.cause.against? = none)
    (actor : Option PlayerState) (e : Event) (w : σ) :
    (changePass actor change).run rules e w =
      (replacePass actor change).run ((RuleSet.ofList rules).ofScope change.legacyScope) e w := by
  refine run_eq_run_ofScope haware (fun rule hrule hscope w => ?_) (fun rule _ hscope => ?_) _ e w
  · refine Option.eq_none_iff_forall_ne_some.2 fun query hselect => hscope ?_
    exact scope_eq_legacyScope hone (hagainst.imp_left fun h => h rule hrule)
      (changePass_select.1 hselect)
  · unfold BlockTransform.legacyScope at hscope
    unfold BlockTransform.legacyBlock
    cases hplaced : change.isPlace with
    | true =>
      rw [hplaced, if_pos rfl] at hscope
      simp only [hscope, if_true]
    | false =>
      rw [hplaced, Bool.ne_false_iff] at hone
      rw [hplaced, if_neg Bool.false_ne_true] at hscope
      simp only [hscope, hone, hplace, if_true, Bool.false_eq_true, if_false]

variable (owned : Bool) (height : Option Int32)

include hone in
lemma checkBlockTransform_eq (hplace : change.old.position = change.new.position)
    (hagainst : (∀ rule ∈ rules, rule.scope ≠ .blockPlaceAgainst) ∨ change.cause.against? = none)
    (status : Status) (w : σ) :
    checkBlockTransform ⟨.ofList rules, true, owned, height⟩ change status w =
      checkBlockTransform ⟨.ofList rules, false, owned, height⟩ change status w := by
  cases hstatus : status.cancelled with
  | true => exact (if_pos hstatus).trans (if_pos hstatus).symm
  | false =>
    rw [checkBlockTransform_of_priority _ change rfl hstatus,
      checkBlockTransform_of_legacy _ change rfl hstatus]
    exact run_changePass_eq haware hone hplace hagainst _ _ w

end Scopes

/-! ## All occasions -/

/-- **Where all rules are priority-aware, the regimes do the same on plain occasions:** they leave
the same event and the same state, and put the same questions to filters and the same requests to
players, in the same order. -/
theorem handle_eq_of_aware (rules : List (Rule σ))
    (haware : ∀ rule ∈ rules, rule.priorityAware = true) (owned : Bool) (height : Option Int32)
    (occasion : Occasion σ) (hplain : occasion.IsPlain rules) (w : σ) :
    handle ⟨.ofList rules, true, owned, height⟩ occasion w =
      handle ⟨.ofList rules, false, owned, height⟩ occasion w := by
  by_cases hends : occasion.EndsByHalts
  · exact handle_congr haware rfl rfl occasion hends w
  · cases occasion with
    | enterLeave player origin target e =>
      exact checkEnterLeave_eq haware owned height hplain player origin target e w
    | coarseMove player move status =>
      exact congrArg (Outcome.andThen · (applyEffects _ player move))
        (checkEnterLeave_eq haware owned height hplain player _ _ _ w)
    | flagPickup carrier status =>
      exact checkEnterLeave_eq haware owned height hplain (some carrier) none _ _ w
    | effects player move e => rfl
    | blockTransform change status =>
      obtain ⟨hplace, hone, hagainst⟩ := hplain
      exact checkBlockTransform_eq haware hone owned height hplace hagainst status w
    | blockPhysics block status => rfl
    | _ => exact absurd trivial hends

section Locks

/-- Priority-aware rules of three scopes, none of them on exit. -/
def locks : List (Rule ℕ) :=
  [{ scope := .blockPlace, region := .everywhere, filter := some countingFilter,
      message := some "not yet", priorityAware := true },
    { scope := .playerEnter, region := .block ⟨0, 0, 0⟩, filter := some countingFilter,
      priorityAware := true },
    { scope := .blockBreak, region := .everywhere, filter := some countingFilter,
      priorityAware := true },
    { scope := .blockPlace, region := .everywhere, filter := some countingFilter,
      message := some "locked", priorityAware := true }]

/-- The painting is hung up where the first rule on placing lets it pass and the second does not;
the visitor who enters meets one rule. -/
theorem locks_handle_eq :
    let priority : Dispatcher ℕ := ⟨.ofList locks, true, true, none⟩
    let legacy : Dispatcher ℕ := ⟨.ofList locks, false, true, none⟩
    let change : Occasion ℕ := .blockTransform hangUp {}
    let entry : Occasion ℕ := .flagPickup visitor {}
    (∀ rule ∈ locks, rule.priorityAware = true) ∧ change.IsPlain locks ∧ entry.IsPlain locks ∧
      priority.handle change 0 = legacy.handle change 0 ∧
      (priority.handle change 0).event = .blockTransform hangUp ⟨true, some "locked"⟩ ∧
      priority.handle entry 1 = legacy.handle entry 1 ∧
      (priority.handle entry 1).event = .flagPickup ⟨true, none⟩ := by
  intro priority legacy change entry
  have haware : ∀ rule ∈ locks, rule.priorityAware = true := by simp [locks]
  have hchange : change.IsPlain locks := ⟨rfl, by decide, .inr rfl⟩
  have hentry : entry.IsPlain locks := .inr (by simp [locks])
  refine ⟨haware, hchange, hentry, handle_eq_of_aware locks haware true none change hchange 0, rfl,
    handle_eq_of_aware locks haware true none entry hentry 1, ?_⟩
  decide +kernel

end Locks

end Dispatcher
end RegionRules
