import RegionRules.Proofs.Region.Readings

/-!
# When remembered strategies show

A union keeps the strategy of its first listing, and its clones keep it too.  A region is
*transparent* if nobody can tell: whatever was listed, asked, copied and frozen before, in whatever
states, a copy of the region reads as the region does when it is rebuilt and remembers nothing.

Children that count as static may all the same follow the state, below a `static` mark.  Then they
may select a strategy in one state that is wrong in another.  Unions whose children do not are
*steadfast*: in every state, the strategies selected in any two states give the same reading.  All
parts of a region are transparent just when all of them are steadfast, and honest regions have
nothing else (`isTransparent_iff`).  So the histories come down to two states at a time.
-/

set_option autoImplicit false

namespace RegionRules
namespace Region

open Cursor (readings)

variable {σ : Type} {memo : Memo} {s t : σ} {frozen : Bool} {r : Region σ}
  {id : Option UnionId} {children : List (Region σ)}

/-! ## Unions by strategy -/

lemma map_bare_parts (s : σ) (children : List (Region σ)) :
    (parts s children).map bare = parts s (children.map bare) := by
  unfold parts
  rw [isStaticAll_bare]
  split_ifs
  · rfl
  · rw [toStaticAll_eq_map, toStaticAll_eq_map, List.map_map, List.map_map]
    exact List.map_congr_left fun r _ => (toStatic_bare s r).symm

/-- The listing of a union of the children by a strategy; `whole` is the union to scan. -/
def listBy (memo : Memo) (s : σ) (frozen : Bool) (whole : Region σ) (children : List (Region σ)) :
    Strategy → Except BlockError (Cursor σ)
  | .fullScan => Cursor.scanBounds whole (whole.bounds s)
  | .childScan => cursorAll memo s frozen children
  | .filteredChildScan _ => (cursorAll memo s frozen children).map (.distinct ∅)

lemma cursor_union (memo : Memo) (s : σ) (frozen : Bool) (id : Option UnionId)
    (children : List (Region σ)) :
    cursor memo s frozen (.union id children) =
      let whole := toStatic s (.union id children)
      if frozen || isStaticAll children then
        listBy memo s frozen whole children
          (memo.strategy s (partsId id children) (parts s children))
      else (Cursor.scanBounds whole (whole.bounds s)).map (.pinned s) := by
  rw [cursor, toStatic_union]
  dsimp only
  split_ifs
  · cases memo.strategy s (partsId id children) (parts s children) <;> rfl
  · rfl

/-- A static region does not care whether its frozen form is meant. -/
lemma cursor_of_isStatic (h : r.isStatic = true) (frozen : Bool) :
    r.cursor memo s frozen = r.cursor memo s false := by
  induction r with
  | union id children ih =>
    have hstatic : isStaticAll children = true := h
    have hall : cursorAll memo s frozen children = cursorAll memo s false children :=
      cursorAll_congr fun r hr => ⟨rfl, ih r hr (isStaticAll_eq_true.1 hstatic r hr)⟩
    rw [cursor, cursor, hstatic, Bool.or_true, Bool.or_true, hall]
  | dynamic resolve => cases h
  | _ => rfl

lemma listBy_of_isStatic (h : ∀ r ∈ children, r.isStatic = true) (frozen : Bool)
    (whole : Region σ) (strategy : Strategy) :
    listBy memo s frozen whole children strategy = listBy memo s false whole children strategy := by
  have hall : cursorAll memo s frozen children = cursorAll memo s false children :=
    cursorAll_congr fun r hr => ⟨rfl, cursor_of_isStatic (h r hr) frozen⟩
  cases strategy <;> simp only [listBy, hall]

lemma cursor_union_of_isStatic (h : isStaticAll children = true) (memo : Memo) (s : σ)
    (frozen : Bool) (id : Option UnionId) :
    cursor memo s frozen (.union id children) =
      listBy memo s false (.union id children) children (memo.strategy s id children) := by
  have hwhole : toStatic s (.union id children) = .union id children :=
    toStatic_of_isStatic (show isStatic (.union id children) = true from h) s
  rw [cursor_union, hwhole, parts, partsId, if_pos h, if_pos h, h, Bool.or_true]
  exact listBy_of_isStatic (isStaticAll_eq_true.1 h) frozen _ _

lemma checkBlockBounded_bare (s : σ) (r : Region σ) :
    r.bare.checkBlockBounded s = r.checkBlockBounded s := by
  rw [checkBlockBounded, checkBlockBounded, isBlockBounded_bare, bounds_bare]

section Chain

variable (h : ∀ r ∈ children, r.isBlockBounded s = true ∧
  readings (r.cursor memo s frozen) = readings (r.bare.cursor ∅ s frozen))

include h

/-- Children that read as rebuilt make a chain that reads so. -/
lemma readings_cursorAll : readings (cursorAll memo s frozen children) =
    readings (cursorAll ∅ s frozen (children.map bare)) := by
  induction children with
  | nil => rfl
  | cons r rs ih =>
    rw [List.forall_mem_cons] at h
    obtain ⟨⟨hbounded, hr⟩, hrs⟩ := h
    rw [List.map_cons, cursorAll, cursorAll, checkBlockBounded_bare, checkBlockBounded,
      if_pos hbounded]
    obtain ⟨e, hfirst, hfirst'⟩ | ⟨first, first', hfirst, hfirst', hreading⟩ :=
      Cursor.readings_eq_iff.1 hr
    · rw [hfirst, hfirst']
      rfl
    obtain ⟨e, hothers, hothers'⟩ | ⟨others, others', hothers, hothers', hreadings⟩ :=
      Cursor.readings_eq_iff.1 (ih hrs)
    · rw [hfirst, hfirst', hothers, hothers']
      rfl
    · rw [hfirst, hfirst', hothers, hothers']
      exact congrArg Except.ok (Cursor.reading_append hreading hreadings)

/-- Whatever the strategy, a union of such children reads as rebuilt. -/
lemma readings_listBy (whole : Region σ) (strategy : Strategy) :
    readings (listBy memo s frozen whole children strategy) =
      readings (listBy ∅ s frozen whole.bare (children.map bare) strategy) := by
  cases strategy with
  | fullScan =>
    rw [listBy, listBy, bounds_bare]
    exact Cursor.readings_scanBounds (fun t b => (containsBlock_bare t b whole).symm) _
  | childScan => exact readings_cursorAll h
  | filteredChildScan capacity =>
    exact Cursor.readings_map (fun _ _ => Cursor.reading_distinct ∅) (readings_cursorAll h)

end Chain

/-! ## Steadfast unions -/

/-- The listing of a union of the children by a strategy, all of it rebuilt. -/
def listRebuilt (t : σ) (children : List (Region σ)) (strategy : Strategy) :
    Except BlockError (Cursor σ) :=
  listBy ∅ t false (.union none (children.map bare)) (children.map bare) strategy

/-- A union of static children reads the same by the strategy that they select in any state. -/
def IsSteadfast : Region σ → Prop
  | .union _ children => isStaticAll children = true → ∀ s t,
      (∀ r ∈ children, r.isBlockBounded t = true) →
        readings (listRebuilt t children (.select s children)) =
          readings (listRebuilt t children (.select t children))
  | _ => True

lemma isSteadfast_bare (r : Region σ) : r.bare.IsSteadfast ↔ r.IsSteadfast := by
  cases r with
  | union id children =>
    simp only [bare_union, IsSteadfast, listRebuilt, isStaticAll_bare, select_bare, map_bare_bare,
      List.forall_mem_map, isBlockBounded_bare]
  | _ => exact Iff.rfl

/-- Honest unions select the same strategy in every state. -/
lemma IsHonest.throughout_isSteadfast (h : r.IsHonest) : r.Throughout IsSteadfast := by
  induction h with
  | intro r _ part ih =>
    refine .intro r ?_ ih
    cases r with
    | union id children =>
      intro _ s t _
      rw [select_congr (fun r hr => part r (.child id hr)) s t]
    | _ => trivial

/-! ## Histories come down to two states -/

/-- **Remembered strategies do not show in a region whose unions are steadfast.** -/
theorem readings_cursor {register : Register σ}
    (hkeeps : memo.Keeps (fun children strategy => ∃ s, strategy = .select s children) register)
    (hregistered : r.IsRegistered register) (hsteadfast : r.Throughout IsSteadfast)
    (hbounded : r.isBlockBounded t = true) (frozen : Bool) :
    readings (r.cursor memo t frozen) = readings (r.bare.cursor ∅ t frozen) := by
  induction r generalizing frozen with
  | union id children ih =>
    have hchildren := isBlockBounded_union.1 hbounded
    have hchain (frozen : Bool) : ∀ r ∈ children, r.isBlockBounded t = true ∧
        readings (r.cursor memo t frozen) = readings (r.bare.cursor ∅ t frozen) := fun r hr =>
      ⟨hchildren r hr,
        ih r hr (hregistered.child hr) (hsteadfast.child hr) (hchildren r hr) frozen⟩
    by_cases hstatic : isStaticAll children = true
    · -- What is remembered was selected in some state, and the reading is that of this one.
      obtain ⟨s, hs⟩ := hkeeps.fit_strategy hregistered ⟨t, (select_bare t children).symm⟩
      rw [select_bare] at hs
      rw [cursor_union_of_isStatic hstatic, hs, readings_listBy (hchain false), bare_union,
        cursor_union_of_isStatic ((isStaticAll_bare children).trans hstatic),
        Memo.strategy_empty, select_bare]
      exact hsteadfast.here hstatic s t hchildren
    · rw [cursor_union, bare_union, cursor_union, ← bare_union id, toStatic_bare, isStaticAll_bare]
      dsimp only
      split_ifs with hlisted
      · rw [Memo.strategy_empty, ← map_bare_parts, select_bare, partsId, if_neg hstatic]
        exact readings_listBy (hchain frozen) _ _
      · refine Cursor.readings_map (fun _ _ => Cursor.reading_pinned t) ?_
        rw [bounds_bare]
        exact Cursor.readings_scanBounds (fun s b => (containsBlock_bare s b _).symm) _
  | static inner ih =>
    have hinner : inner.isBlockBounded t = true := hbounded
    rw [bare, cursor, cursor, checkBlockBounded_bare, checkBlockBounded, if_pos hinner]
    exact ih (hregistered.part (.marked inner)) (hsteadfast.part (.marked inner)) hinner false
  | dynamic resolve ih =>
    have hresolved : (resolve t).isBlockBounded t = true := hbounded
    rw [bare, cursor, cursor, checkBlockBounded_bare, checkBlockBounded, if_pos hresolved]
    exact Cursor.readings_map (fun _ _ => Cursor.reading_pinned t)
      (ih t (hregistered.part (.resolved resolve t)) (hsteadfast.part (.resolved resolve t))
        hresolved true)
  | _ => rfl

/-! ## Transparent regions -/

/-- Whatever has become of an atlas, in every state the copies of the region read as the region does
when it is rebuilt and remembers nothing. -/
def IsTransparent (r : Region σ) : Prop :=
  ∀ (atlas : Atlas σ) (known : Set (Region σ)), atlas.Used known →
    ∀ copy : Region σ, copy.IsMadeOf known → copy.bare = r.bare →
      ∀ t, readings (atlas.blocks t copy).1 = readings (r.bare.blocks ∅ t)

lemma isTransparent_of_isSteadfast (h : r.Throughout IsSteadfast) : r.IsTransparent := by
  intro atlas known hused copy hmade hcopy t
  obtain ⟨register, hkeeps, hknown⟩ := hused.registers
  have hsteadfast : copy.Throughout IsSteadfast := by
    rwa [← throughout_bare_iff isSteadfast_bare, hcopy, throughout_bare_iff isSteadfast_bare]
  rw [Atlas.blocks_fst, ← hcopy]
  by_cases hbounded : copy.isBlockBounded t = true
  · rw [blocks_eq_cursor _ hbounded,
      blocks_eq_cursor _ ((isBlockBounded_bare t copy).trans hbounded)]
    exact readings_cursor hkeeps.keeps (hmade.isRegistered hknown) hsteadfast hbounded false
  · rw [blocks, blocks, checkBlockBounded_bare, checkBlockBounded, if_neg hbounded]
    rfl

/-- Of a copy that can be listed, the cursors are compared. -/
lemma IsTransparent.readings_cursor (h : r.IsTransparent) {atlas : Atlas σ}
    {known : Set (Region σ)} (hused : atlas.Used known) {copy : Region σ}
    (hmade : copy.IsMadeOf known) (hcopy : copy.bare = r.bare)
    (hbounded : copy.isBlockBounded t = true) :
    readings (copy.cursor atlas.ledger.memo t false) = readings (copy.bare.cursor ∅ t false) := by
  have hlist := h atlas known hused copy hmade hcopy t
  rwa [Atlas.blocks_fst, blocks_eq_cursor _ hbounded, ← hcopy,
    blocks_eq_cursor _ ((isBlockBounded_bare t copy).trans hbounded)] at hlist

/-- A union that is new to an atlas and is asked for its strategy in a state keeps that strategy. -/
lemma exists_asked (s : σ) (id : Option UnionId) (children : List (Region σ)) :
    ∃ (atlas : Atlas σ) (held : List (Region σ)) (known : Set (Region σ)), atlas.Used known ∧
      .union (some 0) held ∈ known ∧ held.map bare = children.map bare ∧
      ∀ t, atlas.ledger.memo.strategy t (some 0) held = .select s children := by
  let tree : Region σ := .union none (children.map bare)
  let held : List (Region σ) := (holdAll .owned ⟨1, ∅⟩ (children.map bare)).1
  let added : Atlas σ := ({} : Atlas σ).add tree
  have hmade : tree.IsMadeOf ∅ := by
    rw [show tree = bare (.union id children) from (bare_union id children).symm]
    exact isMadeOf_bare ∅ _
  have hbare : held.map bare = children.map bare := by
    rw [map_bare_holdAll fun r _ ledger => bare_hold .owned ledger r, map_bare_bare]
  have hadded : added.Used {.union (some 0) held} := by
    rw [← insert_empty_eq]
    exact Atlas.Used.new.add tree hmade
  have hselected : added.ledger.memo.strategy s (some 0) held = .select s children := by
    obtain ⟨register, hkeeps, hknown⟩ : Ledger.Registers
        (fun children strategy => strategy = .select s children) added.ledger
          (insert (tree.hold .owned {}).1 ∅) := Ledger.Registers.new.hold .owned hmade
    have hfit : added.ledger.memo.strategy s (some 0) held = .select s (held.map bare) :=
      hkeeps.keeps.fit_strategy (hknown _ (.inl rfl)) (select_bare s held).symm
    rwa [hbare, select_bare] at hfit
  refine ⟨(added.strategy? s (.union (some 0) held)).2, held, {.union (some 0) held},
    hadded.strategy s _ (isMadeOf_of_mem rfl), rfl, hbare, fun t => ?_⟩
  exact (Memo.strategy_remember _ t 0 _ held).trans hselected

/-- Ask a union for its strategy in one state and list it in another: it has to be steadfast. -/
lemma isSteadfast_of_isTransparent (h : IsTransparent (.union id children))
    (hchildren : ∀ r ∈ children, r.IsTransparent) : IsSteadfast (.union id children) := by
  intro hstatic s t hbounded
  obtain ⟨atlas, held, known, hused, hmem, hbare, hstrategy⟩ := exists_asked s id children
  have hbounded_held : ∀ r ∈ held, r.isBlockBounded t = true := by
    have hmapped : ∀ r ∈ held.map bare, r.isBlockBounded t = true := by
      rw [hbare]
      exact List.forall_mem_map.2 fun r hr => (isBlockBounded_bare t r).trans (hbounded r hr)
    exact fun r hr => (isBlockBounded_bare t r).symm.trans (hmapped _ (List.mem_map_of_mem hr))
  have hstatic_held : isStaticAll held = true := by
    rw [← isStaticAll_bare, hbare, isStaticAll_bare, hstatic]
  -- The children that the atlas holds are copies, so they read as rebuilt.
  have hchain : ∀ r ∈ held, r.isBlockBounded t = true ∧
      readings (r.cursor atlas.ledger.memo t false) = readings (r.bare.cursor ∅ t false) := by
    intro r hr
    obtain ⟨child, hchild, hcopy⟩ := List.mem_map.1 (hbare ▸ List.mem_map_of_mem hr)
    exact ⟨hbounded_held r hr, (hchildren child hchild).readings_cursor hused
      ((isMadeOf_of_mem hmem).child hr) hcopy.symm (hbounded_held r hr)⟩
  have hcopy : bare (.union (some 0) held) = .union none (children.map bare) := by
    rw [bare_union, hbare]
  have hlist := h.readings_cursor hused (isMadeOf_of_mem hmem)
    (hcopy.trans (bare_union id children).symm) (isBlockBounded_union.2 hbounded_held)
  rwa [cursor_union_of_isStatic hstatic_held, hstrategy t, readings_listBy hchain, hcopy, hbare,
    cursor_union_of_isStatic ((isStaticAll_bare children).trans hstatic), Memo.strategy_empty,
    select_bare] at hlist

/-- **Remembered strategies show in no part of a region just when all its parts are steadfast,** and
they are if the region is honest.  Here anything may have been listed, asked, copied, frozen and
put together before, in any states.  A part is transparent if its copies then read, in every state
and whatever states they are asked in, as it does when each of its unions is rebuilt; and it is
steadfast unless it is a union of static children that reads differently by two strategies that
the children select, each in some state. -/
theorem isTransparent_iff (r : Region σ) :
    (r.Throughout IsTransparent ↔ r.Throughout IsSteadfast) ∧
      (r.IsHonest → r.Throughout IsTransparent) := by
  have hsteadfast {r : Region σ} (h : r.Throughout IsSteadfast) : r.Throughout IsTransparent := by
    induction h with
    | intro r here part ih => exact .intro r (isTransparent_of_isSteadfast (.intro r here part)) ih
  refine ⟨⟨fun h => ?_, hsteadfast⟩, fun h => hsteadfast h.throughout_isSteadfast⟩
  induction h with
  | intro r here part ih =>
    refine .intro r ?_ ih
    cases r with
    | union id children =>
      exact isSteadfast_of_isTransparent here fun r hr => (part r (.child id hr)).here
    | _ => trivial

section Doubled

/-- A block, and a frozen copy of it. -/
def doubled : Region Bool := .union none [.static (.block ⟨0, 0, 0⟩), .block ⟨0, 0, 0⟩]

/-- The pair settles on a scan in one state, and lists its block once in the other, as it would
without that. -/
theorem doubled_isTransparent :
    let atlas : Atlas Bool := ({} : Atlas Bool).add doubled
    let copy : Region Bool := .union (some 0) [.static (.block ⟨0, 0, 0⟩), .block ⟨0, 0, 0⟩]
    let asked : Atlas Bool := (atlas.strategy? false copy).2
    (doubled.IsHonest ∧ asked.Used {copy} ∧ copy.IsMadeOf {copy} ∧ copy.bare = doubled.bare) ∧
      asked.ledger.memo[0]? = some .fullScan ∧ doubled.Throughout IsSteadfast ∧
      readings (asked.blocks true copy).1 = readings (doubled.bare.blocks ∅ true) ∧
      (asked.blocks true copy).1.map (·.toList true) = .ok [⟨0, 0, 0⟩] := by
  intro atlas copy asked
  have hhonest : doubled.IsHonest := by
    refine .union (by simp) (forall_mem_pair.2 ⟨.static ?_ (.cuboid (by simp)), .cuboid (by simp)⟩)
    rintro inner ⟨⟩
    exact .cuboid (by simp)
  have hcopy : copy.IsMadeOf {copy} := isMadeOf_of_mem rfl
  have hused : asked.Used {copy} := by
    have hadded : atlas.Used (insert copy ∅) :=
      Atlas.Used.new.add doubled (isMadeOf_bare ∅ doubled)
    rw [insert_empty_eq] at hadded
    exact hadded.strategy false copy hcopy
  obtain ⟨hiff, htransparent⟩ := isTransparent_iff doubled
  have hall := htransparent hhonest
  exact ⟨⟨hhonest, hused, hcopy, rfl⟩, by decide +kernel, hiff.1 hall,
    hall.here asked {copy} hused copy hcopy rfl true, by decide +kernel⟩

end Doubled

section Disguised

/-- A block that follows the state, marked as static, and the place where it goes. -/
def disguised : Region Bool :=
  .union none [.static (.dynamic fun moved => .block (if moved then ⟨0, 0, 0⟩ else ⟨5, 0, 0⟩)),
    .block ⟨0, 0, 0⟩]

/-- While the two blocks are apart the union settles on chaining its children's lists.  Later they
are one block, and it is listed twice; the union rebuilt lists it once. -/
theorem disguised_listed_twice :
    let atlas : Atlas Bool := ({} : Atlas Bool).add disguised
    let copy : Region Bool := .union (some 0)
      [.static (.dynamic fun moved => .block (if moved then ⟨0, 0, 0⟩ else ⟨5, 0, 0⟩)),
        .block ⟨0, 0, 0⟩]
    let asked : Option Strategy × Atlas Bool := atlas.strategy? false copy
    (atlas.get? 0 = some copy ∧ disguised.isStatic = true) ∧
      asked.1 = some .childScan ∧
      (asked.2.blocks true copy).1.map (·.toList true) = .ok [⟨0, 0, 0⟩, ⟨0, 0, 0⟩] ∧
      (disguised.bare.blocks ∅ true).map (·.toList true) = .ok [⟨0, 0, 0⟩] ∧
      ¬ disguised.IsTransparent := by
  intro atlas copy asked
  have hcopy : copy.IsMadeOf {copy} := isMadeOf_of_mem rfl
  have hused : asked.2.Used {copy} := by
    have hadded : atlas.Used (insert copy ∅) :=
      Atlas.Used.new.add disguised (isMadeOf_bare ∅ disguised)
    rw [insert_empty_eq] at hadded
    exact hadded.strategy false copy hcopy
  refine ⟨⟨rfl, rfl⟩, by decide +kernel, by decide +kernel, by decide +kernel, fun h => ?_⟩
  have hreadings := h asked.2 {copy} hused copy hcopy rfl true
  have htwo : (readings (asked.2.blocks true copy).1).map (· [true, true]) ≠
      (readings (disguised.bare.blocks ∅ true)).map (· [true, true]) := by decide +kernel
  exact htwo (congrArg (Except.map (· [true, true])) hreadings)

end Disguised

end Region
end RegionRules
