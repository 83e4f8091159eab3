import RegionRules.Proofs.Dispatch.Agreement

/-!
# What an occasion takes no notice of

Two dispatchers of one regime do the same on an occasion if they walk alike through the rules of the
scopes that the occasion is of: scope by scope, and in the priority regime also through all rules at
once (`Dispatcher.SameWalks.handle_eq`).  Two things follow.

A rule that has neither a filter nor effects, and a rule of a scope that is not consulted, can stand
anywhere among the rules without a trace (`Dispatcher.handle_insert_eq`).  And the legacy regime
sees the rules of each scope by themselves, in order of declaration, so that it does not matter how
the scopes are interleaved (`Dispatcher.legacy_handle_eq`).
-/

set_option autoImplicit false

namespace RegionRules

variable {σ : Type}

/-- An occasion takes notice of the rules of the scopes that it consults, if they have a filter or
effects. -/
def Occasion.notices (priority : Bool) (occasion : Occasion σ) (rule : Rule σ) : Bool :=
  (rule.filter.isSome || rule.hasEffects) && decide (rule.scope ∈ occasion.scopes priority)

namespace Dispatcher

/-! ## Dispatchers that walk alike -/

/-- Two dispatchers of one regime walk the rules of some scopes alike: those of one scope by
themselves, and in the priority regime those of these scopes among all rules. -/
structure SameWalks (d d' : Dispatcher σ) (scopes : List Scope) : Prop where
  usesPriority_eq : d.usesPriority = d'.usesPriority
  ownedExplosions_eq : d.ownedExplosions = d'.ownedExplosions
  run_ofScope : ∀ scope ∈ scopes, ∀ pass : Pass σ,
    pass.run (d.rules.ofScope scope) = pass.run (d'.rules.ofScope scope)
  runEffects_ofScope : Scope.effect ∈ scopes → ∀ (p : Player σ) (move : CoarseMove) (query : Query),
    runEffects p move query (d.rules.ofScope .effect) =
      runEffects p move query (d'.rules.ofScope .effect)
  run_toList : d.usesPriority = true → ∀ pass : Pass σ,
    (∀ rule, rule.scope ∉ scopes → ∀ w, pass.select rule w = none) →
    pass.run d.rules.toList = pass.run d'.rules.toList

namespace SameWalks

variable {d d' : Dispatcher σ} {scopes : List Scope} (h : d.SameWalks d' scopes)

include h

lemma walksAlike {scope : Scope} (hscope : scope ∈ scopes) : d.WalksAlike d' scope := by
  intro select react e w
  have hhalts : d.halts = d'.halts := by
    funext rule
    rw [halts, halts, h.usesPriority_eq]
  rw [hhalts]
  exact congrFun₂ (h.run_ofScope scope hscope _) e w

lemma checkEnterLeave_eq (hmove : [Scope.playerEnter, .playerLeave] ⊆ scopes)
    (player : Option (Player σ)) (origin : Option Vec3) (target : Vec3) (e : Event) (w : σ) :
    d.checkEnterLeave player origin target e w = d'.checkEnterLeave player origin target e w := by
  have henter : Scope.playerEnter ∈ scopes := hmove List.mem_cons_self
  have hleave : Scope.playerLeave ∈ scopes := hmove (List.mem_cons_of_mem _ List.mem_cons_self)
  refine ite_congr rfl (fun _ => rfl) fun _ => ?_
  cases Player.active? player w with
  | none => rfl
  | some p =>
    dsimp only
    rw [← h.usesPriority_eq]
    split_ifs with hpriority
    · refine congrFun₂ (h.run_toList hpriority _ fun rule hscope w => ?_) e w
      exact movePass_select_eq_none _ (fun heq => hscope (heq ▸ henter))
        (fun heq => hscope (heq ▸ hleave)) w
    · rw [h.run_ofScope _ henter, h.run_ofScope _ hleave]

lemma applyEffects_eq (heffect : Scope.effect ∈ scopes) (player : Option (Player σ))
    (move : CoarseMove) (e : Event) (w : σ) :
    d.applyEffects player move e w = d'.applyEffects player move e w := by
  refine ite_congr rfl (fun _ => rfl) fun _ => ?_
  cases player with
  | none => rfl
  | some p => exact congrFun₂ (h.runEffects_ofScope heffect p move _) e w

omit h in
lemma checkBlockTransform_eq {change : BlockTransform}
    (h : d.SameWalks d' (Occasion.changeScopes d.usesPriority change)) {status : Status}
    (hopen : status.cancelled = false) (w : σ) :
    d.checkBlockTransform change status w = d'.checkBlockTransform change status w := by
  have hactor : d.actor change = d'.actor change := by rw [actor, actor, h.ownedExplosions_eq]
  cases hpriority : d.usesPriority with
  | true =>
    have hpriority' := h.usesPriority_eq ▸ hpriority
    rw [checkBlockTransform_of_priority d change hpriority hopen,
      checkBlockTransform_of_priority d' change hpriority' hopen, hactor]
    refine congrFun₂ (h.run_toList hpriority _ fun rule hscope w => ?_) _ w
    refine Option.eq_none_iff_forall_ne_some.2 fun query hselect => hscope ?_
    rw [hpriority]
    exact (changePass_select.1 hselect).mem_changeScopes
  | false =>
    have hpriority' := h.usesPriority_eq ▸ hpriority
    rw [checkBlockTransform_of_legacy d change hpriority hopen,
      checkBlockTransform_of_legacy d' change hpriority' hopen, hactor]
    rw [hpriority] at h
    exact congrFun₂ (h.run_ofScope _ (List.mem_singleton_self _) _) _ w

omit h in
/-- **Dispatchers that walk the rules of an occasion's scopes alike do the same on it.** -/
theorem handle_eq {occasion : Occasion σ}
    (h : d.SameWalks d' (occasion.scopes d.usesPriority)) (w : σ) :
    d.handle occasion w = d'.handle occasion w := by
  cases hopen : occasion.event.isCancelled with
  | true => rw [handle_of_cancelled d hopen, handle_of_cancelled d' hopen]
  | false =>
    rw [Occasion.scopes_of_open hopen] at h
    by_cases hone : occasion.EndsByHalts
    · exact handle_eq_of_walksAlike _ hone (fun scope hscope => h.walksAlike hscope) w
    · cases occasion with
      | enterLeave player origin target e =>
        exact h.checkEnterLeave_eq (List.Subset.refl _) player origin target e w
      | coarseMove player move status =>
        have hmove := h.checkEnterLeave_eq (by simp [Occasion.openScopes]) player
          (some move.origin) move.target (.coarseMove move status) w
        have heffects : d.applyEffects player move = d'.applyEffects player move :=
          funext₂ (h.applyEffects_eq (by simp [Occasion.openScopes]) player move)
        exact congrArg₂ Outcome.andThen hmove heffects
      | flagPickup carrier status =>
        exact h.checkEnterLeave_eq (List.Subset.refl _) (some carrier) none _ _ w
      | effects player move e =>
        exact h.applyEffects_eq (List.mem_singleton_self _) player move e w
      | blockTransform change status => exact checkBlockTransform_eq h hopen w
      | blockPhysics block status =>
        refine ite_congr rfl (fun _ => rfl) fun _ => ?_
        exact congrFun₂ (h.run_ofScope _ (List.mem_singleton_self _) _) _ w
      | _ => exact absurd trivial hone

end SameWalks

/-! ## Rules that are not noticed -/

lemma runEffects_filter (p : Player σ) (move : CoarseMove) (query : Query) {keep : Rule σ → Bool}
    {rules : List (Rule σ)} (h : ∀ rule ∈ rules, keep rule = false → rule.hasEffects = false)
    (e : Event) (w : σ) :
    runEffects p move query (rules.filter keep) e w = runEffects p move query rules e w := by
  induction rules generalizing e w with
  | nil => rfl
  | cons rule rules ih =>
    rw [List.forall_mem_cons] at h
    have hrest : runEffects p move query (rules.filter keep) = runEffects p move query rules :=
      funext₂ (ih h.2)
    cases hkeep : keep rule with
    | true => rw [List.filter_cons_of_pos hkeep, runEffects, runEffects, hrest]
    | false =>
      have hfires : fires move rule w = false := by rw [fires, h.1 hkeep, Bool.false_and]
      rw [List.filter_cons_of_neg (Bool.not_eq_true _ ▸ hkeep), hrest, runEffects,
        applyEffect_of_not_fires p move query e hfires, Outcome.unchanged_andThen]

/-- Leaving out rules without filter and effects, and rules of other scopes, changes no walk. -/
lemma sameWalks_filter {keep : Rule σ → Bool} {rules : List (Rule σ)} {scopes : List Scope}
    (h : ∀ rule ∈ rules, keep rule = false →
      (rule.filter = none ∧ rule.hasEffects = false) ∨ rule.scope ∉ scopes)
    (priority owned : Bool) (height : Option Int32) :
    SameWalks ⟨.ofList (rules.filter keep), priority, owned, height⟩
      ⟨.ofList rules, priority, owned, height⟩ scopes := by
  -- What is left out of a scope that counts has nothing to be asked and nothing to give.
  have hscope {scope : Scope} (hmem : scope ∈ scopes) :
      ∀ rule ∈ rules.filter (·.scope = scope), keep rule = false →
        rule.filter = none ∧ rule.hasEffects = false := by
    intro rule hrule hkeep
    obtain ⟨hrule, hscope⟩ := List.mem_filter.1 hrule
    refine (h rule hrule hkeep).resolve_right (not_not_intro ?_)
    rwa [of_decide_eq_true hscope]
  refine ⟨rfl, rfl, fun scope hmem pass => ?_, fun hmem p move query => ?_, fun _ pass hpass => ?_⟩
  · rw [RuleSet.ofScope_ofList, RuleSet.ofScope_ofList, List.filter_comm]
    exact funext₂ (pass.run_filter fun rule hrule hkeep _ => .inl (hscope hmem rule hrule hkeep).1)
  · rw [RuleSet.ofScope_ofList, RuleSet.ofScope_ofList, List.filter_comm]
    exact funext₂ (runEffects_filter p move query fun rule hrule hkeep =>
      (hscope hmem rule hrule hkeep).2)
  · exact funext₂ (pass.run_filter fun rule hrule hkeep w =>
      (h rule hrule hkeep).imp And.left fun hother => hpass rule hother w)

/-- **An occasion is handled as if there were only the rules that it takes notice of.** -/
theorem handle_filter_notices (rules : List (Rule σ)) (priority owned : Bool)
    (height : Option Int32) (occasion : Occasion σ) (w : σ) :
    handle ⟨.ofList (rules.filter (occasion.notices priority)), priority, owned, height⟩ occasion
        w = handle ⟨.ofList rules, priority, owned, height⟩ occasion w := by
  refine (sameWalks_filter (fun rule _ hrule => ?_) priority owned height).handle_eq w
  rw [Occasion.notices, Bool.and_eq_false_iff, Bool.or_eq_false_iff, Option.isSome_eq_false_iff,
    Option.isNone_iff_eq_none, decide_eq_false_iff_not] at hrule
  exact hrule

/-- **A rule that is not noticed can stand anywhere.**  Let a rule have neither a filter nor
effects, whatever its scope, region, message and flags, or a scope that is not consulted on an
occasion.  With the rule at any place among others, the occasion leaves the same event and the same
state as without it, and the same questions to filters and requests to the player in the same
order. -/
theorem handle_insert_eq (before after : List (Rule σ)) (rule : Rule σ) (priority owned : Bool)
    (height : Option Int32) (occasion : Occasion σ)
    (hrule : (rule.filter = none ∧ rule.hasEffects = false) ∨
      rule.scope ∉ occasion.scopes priority) (w : σ) :
    handle ⟨.ofList (before ++ rule :: after), priority, owned, height⟩ occasion w =
      handle ⟨.ofList (before ++ after), priority, owned, height⟩ occasion w := by
  have hunnoticed : occasion.notices priority rule = false := by
    rcases hrule with ⟨hfilter, heffects⟩ | hscope
    · simp [Occasion.notices, hfilter, heffects]
    · simp [Occasion.notices, hscope]
  have hsame : (before ++ rule :: after).filter (occasion.notices priority) =
      (before ++ after).filter (occasion.notices priority) := by
    rw [List.filter_append, List.filter_append,
      List.filter_cons_of_neg (Bool.not_eq_true _ ▸ hunnoticed)]
  rw [← handle_filter_notices, hsame, handle_filter_notices]

section Signs

/-- Has a message for those who enter, and nothing else. -/
def sign : Rule ℕ where
  scope := .playerEnter
  region := .everywhere
  message := some "welcome"
  priorityAware := true

/-- Counts what is placed against a block. -/
def fence : Rule ℕ where
  scope := .blockPlaceAgainst
  region := .everywhere
  filter := some countingFilter

/-- The sign may stand between the gates.  The fence may as long as nothing is placed against a
block; when something is, it takes the first question from the gate that is asked next. -/
theorem gates_insert_eq :
    let priority : List (Rule ℕ) → Dispatcher ℕ := fun rules => ⟨.ofList rules, true, true, none⟩
    let entry : Occasion ℕ := .flagPickup visitor {}
    let change : Occasion ℕ := .blockTransform hangUp {}
    let leaning : Occasion ℕ :=
      .blockTransform { hangUp with cause := .place ⟨⟨0, 0, 1⟩, .painting⟩ } {}
    (sign.filter = none ∧ sign.hasEffects = false) ∧ fence.scope ∉ change.scopes true ∧
      (priority (gates.take 1 ++ sign :: gates.drop 1)).handle entry 0 =
        (priority (gates.take 1 ++ gates.drop 1)).handle entry 0 ∧
      (priority ([] ++ fence :: gates)).handle change 0 = (priority ([] ++ gates)).handle change 0 ∧
      fence.scope ∈ leaning.scopes true ∧
      ((priority (fence :: gates)).handle leaning 0).event ≠
        ((priority gates).handle leaning 0).event := by
  intro priority entry change leaning
  have hsign : sign.filter = none ∧ sign.hasEffects = false := ⟨rfl, rfl⟩
  have hfence : fence.scope ∉ change.scopes true := by decide
  exact ⟨hsign, hfence,
    handle_insert_eq (gates.take 1) (gates.drop 1) sign true true none entry (.inl hsign) 0,
    handle_insert_eq [] gates fence true true none change (.inr hfence) 0, by decide, by decide⟩

end Signs

/-! ## The legacy regime -/

/-- Rules that are the same in every scope that an occasion is of are walked alike in the legacy
regime. -/
lemma sameWalks_of_filter_eq {rules rules' : List (Rule σ)} {scopes : List Scope}
    (h : ∀ scope ∈ scopes, rules.filter (·.scope = scope) = rules'.filter (·.scope = scope))
    (owned : Bool) (height : Option Int32) :
    SameWalks ⟨.ofList rules, false, owned, height⟩ ⟨.ofList rules', false, owned, height⟩
      scopes := by
  have hscope {scope : Scope} (hmem : scope ∈ scopes) :
      (RuleSet.ofList rules).ofScope scope = (RuleSet.ofList rules').ofScope scope := by
    rw [RuleSet.ofScope_ofList, RuleSet.ofScope_ofList, h scope hmem]
  refine ⟨rfl, rfl, fun scope hmem pass => ?_, fun hmem p move query => ?_, nofun⟩
  · exact congrArg pass.run (hscope hmem)
  · exact congrArg (runEffects p move query) (hscope hmem)

/-- **The legacy regime sees each scope by itself.**  The rules of a scope are those of all rules
that have it, in order of declaration.  So two lists of rules that have the same rules in each
scope, interleaved in whatever way, make legacy dispatchers that leave the same event and state on
every occasion, and put the same questions to filters and requests to the player in the same
order. -/
theorem legacy_handle_eq (rules : List (Rule σ)) :
    (RuleSet.ofList rules).toList = rules ∧
    (∀ scope, (RuleSet.ofList rules).ofScope scope =
      (RuleSet.ofList rules).toList.filter (·.scope = scope)) ∧
    ∀ rules' : List (Rule σ),
      (∀ scope, rules.filter (·.scope = scope) = rules'.filter (·.scope = scope)) →
      ∀ (owned : Bool) (height : Option Int32) (occasion : Occasion σ) (w : σ),
        handle ⟨.ofList rules, false, owned, height⟩ occasion w =
          handle ⟨.ofList rules', false, owned, height⟩ occasion w := by
  refine ⟨rfl, RuleSet.ofScope_ofList rules, fun rules' hsame owned height occasion w => ?_⟩
  exact (sameWalks_of_filter_eq (fun scope _ => hsame scope) owned height).handle_eq w

/-- The rule on exit may as well stand last of the gates in the legacy regime.  In the priority
regime it would then be asked after the rules on entry, and the player not be told why. -/
theorem gates_legacy_handle_eq :
    let turned : List (Rule ℕ) := gates.drop 1 ++ gates.take 1
    let move : CoarseMove := ⟨.splat .one, .splat .half⟩
    let entry : Occasion ℕ := .enterLeave (some visitor) none move.target (.coarseMove move {})
    (∀ scope, gates.filter (·.scope = scope) = turned.filter (·.scope = scope)) ∧
      handle ⟨.ofList gates, false, true, none⟩ entry 0 =
        handle ⟨.ofList turned, false, true, none⟩ entry 0 ∧
      (handle ⟨.ofList gates, true, true, none⟩ entry 0).event =
        .coarseMove move ⟨true, some "closed"⟩ ∧
      (handle ⟨.ofList turned, true, true, none⟩ entry 0).event =
        .coarseMove move ⟨true, none⟩ := by
  intro turned move entry
  have hsame : ∀ scope, gates.filter (·.scope = scope) = turned.filter (·.scope = scope) := by
    intro scope
    cases scope <;> rfl
  exact ⟨hsame, (legacy_handle_eq gates).2.2 turned hsame true none entry 0, rfl, rfl⟩

end Dispatcher

end RegionRules
