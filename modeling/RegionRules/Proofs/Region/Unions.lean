import RegionRules.Proofs.Region.Listing
import RegionRules.Proofs.Region.Trees
import RegionRules.Region.Blocks

/-!
# Lists of unions

A union lists its blocks by one of three strategies, or by a scan of its frozen form.  They come to
the same set of blocks, the blocks that the union contains, as soon as the children list theirs and
have them in their bounds (`exists_cursor_union`):

* a scan misses nothing, because the bounds of the union hold the bounds of the children;
* a chain of the children's lists gives everything, and gives it once if the bounds of the children
  are pairwise disjoint;
* dropping repeats makes any chain good.

A strategy may be remembered from an earlier listing, in another state.  Only a remembered chain
can be wrong, when the bounds overlap by now; `Memo.SoundFor` excludes this.

Whatever the strategies, all cursors are put together in the same few ways.  A property that passes
from the parts of a region to the whole holds of the cursors of all regions
(`PassesUp.exists_cursor`).
-/

set_option autoImplicit false

namespace RegionRules

/-! ## Cursors over boxes -/

namespace Cursor

variable {σ : Type} {b : Bounds}

lemma exists_ofBounds (s : σ) (h : b.isBlockBounded = true) :
    ∃ c : Cursor σ, ofBounds b = .ok c ∧ c.Lists s b.Covers := by
  obtain ⟨range, hrange⟩ := Bounds.exists_blockRange h
  cases range with
  | none =>
    refine ⟨.nil, by rw [ofBounds, hrange]; rfl, (Lists.nil s).congr fun p => ?_⟩
    exact iff_of_false id (Bounds.not_covers_of_none hrange)
  | some r =>
    refine ⟨.range r r.lo, by rw [ofBounds, hrange]; rfl, (Lists.range s r).congr fun p => ?_⟩
    exact (Bounds.covers_iff_contains hrange).symm

lemma exists_scanBounds (s : σ) (region : Region σ) (h : b.isBlockBounded = true) :
    ∃ c : Cursor σ, scanBounds region b = .ok c ∧
      c.Lists s (fun p => b.Covers p ∧ region.containsBlock s p = true) := by
  obtain ⟨range, hrange⟩ := Bounds.exists_blockRange h
  cases range with
  | none =>
    refine ⟨.nil, by rw [scanBounds, hrange]; rfl, (Lists.nil s).congr fun p => ?_⟩
    exact iff_of_false id fun hp => Bounds.not_covers_of_none hrange hp.1
  | some r =>
    refine ⟨.scan region r r.lo, by rw [scanBounds, hrange]; rfl,
      (Lists.scan s region r).congr fun p => ?_⟩
    rw [Bounds.covers_iff_contains hrange]

end Cursor

/-! ## Strategies -/

lemma Strategy.pairwiseDisjoint_iff {bs : List Bounds} :
    pairwiseDisjoint bs = true ↔ bs.Pairwise fun b b' => b.disjoint b' = true := by
  induction bs with
  | nil => simp [pairwiseDisjoint]
  | cons b bs ih => simp [pairwiseDisjoint, ih]

lemma Strategy.pairwiseDisjoint_of_select {σ : Type} {s : σ} {children : List (Region σ)}
    (h : select s children = .childScan) :
    pairwiseDisjoint (children.map (·.bounds s)) = true := by
  unfold select ofBounds at h
  dsimp only at h
  split_ifs at h with hstatic hdisjoint
  exact (Bool.and_eq_true _ _ ▸ hdisjoint).2

namespace Memo

variable {σ : Type} {memo : Memo} {s : σ} {id : Option UnionId} {children : List (Region σ)}

/-- If the memo has it that the union chains the lists of its children, their bounds are pairwise
disjoint in the state. -/
def SoundFor (memo : Memo) (s : σ) (id : Option UnionId) (children : List (Region σ)) : Prop :=
  memo.remembered? id = some .childScan →
    Strategy.pairwiseDisjoint (children.map (·.bounds s)) = true

lemma soundFor_of_fresh (h : memo.remembered? id = none) : memo.SoundFor s id children := by
  intro hmemo
  rw [h] at hmemo
  cases hmemo

lemma SoundFor.pairwiseDisjoint (h : memo.SoundFor s id children)
    (hstrategy : memo.strategy s id children = .childScan) :
    Strategy.pairwiseDisjoint (children.map (·.bounds s)) = true := by
  unfold strategy at hstrategy
  cases hmemo : memo.remembered? id with
  | none =>
    rw [hmemo] at hstrategy
    exact Strategy.pairwiseDisjoint_of_select hstrategy
  | some remembered =>
    rw [hmemo] at hstrategy
    exact h (hmemo.trans (congrArg some hstrategy))

lemma SoundFor.parts (h : memo.SoundFor s id children) :
    memo.SoundFor s (Region.partsId id children) (Region.parts s children) := by
  unfold Region.partsId Region.parts
  split_ifs with hstatic
  · exact h
  · exact soundFor_of_fresh rfl

end Memo

namespace Region

variable {σ : Type} {memo : Memo} {s : σ} {frozen : Bool} {r : Region σ}
  {id : Option UnionId} {children : List (Region σ)} {b : BlockPos}

/-! ## The test before a listing, and the list -/

lemma blocks_eq_cursor (memo : Memo) (h : r.isBlockBounded s = true) :
    r.blocks memo s = r.cursor memo s false := by
  rw [blocks, checkBlockBounded, if_pos h]
  rfl

lemma isBlockBounded_of_blocks {c : Cursor σ} (h : r.blocks memo s = .ok c) :
    r.isBlockBounded s = true := by
  by_contra hb
  rw [blocks, checkBlockBounded, if_neg hb] at h
  cases h

/-- The list of a region's blocks in a state, empty if they cannot be listed. -/
def blockList (memo : Memo) (s : σ) (r : Region σ) : List BlockPos :=
  match r.blocks memo s with
  | .ok c => c.toList s
  | .error _ => []

lemma blockList_eq {c : Cursor σ} (h : r.blocks memo s = .ok c) :
    r.blockList memo s = c.toList s := by
  rw [blockList, h]

/-! ## The whole of a union -/

lemma toStatic_union (s : σ) (id : Option UnionId) (children : List (Region σ)) :
    toStatic s (.union id children) = .union (partsId id children) (parts s children) := by
  unfold partsId parts
  rw [toStatic]
  split_ifs <;> rfl

lemma map_bounds_parts (s : σ) (children : List (Region σ)) :
    (parts s children).map (bounds s) = children.map (bounds s) := by
  unfold parts
  split_ifs
  · rfl
  · rw [toStaticAll_eq_map, List.map_map]
    exact List.map_congr_left fun r _ => bounds_toStatic s r

/-! ## Chains

What each child lists may be any set of blocks here, for the children of a union need not be what
they should be. -/

/-- **The chain of the children's lists has just the blocks on them,** each once if the lists share
no block. -/
lemma exists_cursorAll {P : Region σ → BlockPos → Prop}
    (h : ∀ r ∈ children, r.isBlockBounded s = true ∧
      ∃ c, r.cursor memo s frozen = .ok c ∧ c.Lists s (P r)) :
    ∃ c, cursorAll memo s frozen children = .ok c ∧
      (∀ b, b ∈ c.toList s ↔ ∃ r ∈ children, P r b) ∧
      (children.Pairwise (fun r r' => ∀ b, P r b → ¬ P r' b) → (c.toList s).Nodup) := by
  induction children with
  | nil => exact ⟨.nil, rfl, by simp [Cursor.toList_nil], by simp [Cursor.toList_nil]⟩
  | cons r rs ih =>
    rw [List.forall_mem_cons] at h
    obtain ⟨⟨hbounded, first, hfirst, hlists⟩, hrs⟩ := h
    obtain ⟨others, hothers, hmem, hnodup⟩ := ih hrs
    refine ⟨.append first others, ?_, fun b => ?_, fun hdisjoint => ?_⟩
    · rw [cursorAll, checkBlockBounded, if_pos hbounded, hfirst, hothers]
      rfl
    · rw [Cursor.toList_append, List.mem_append, hlists.mem_iff b, hmem b]
      simp
    · rw [List.pairwise_cons] at hdisjoint
      rw [Cursor.toList_append]
      refine hlists.nodup.append (hnodup hdisjoint.2) fun b hb hb' => ?_
      obtain ⟨r', hr', hrb'⟩ := (hmem b).1 hb'
      exact hdisjoint.1 r' hr' b ((hlists.mem_iff b).1 hb) hrb'

/-! ## Unions of listed children -/

/-- Read in the state, the cursor gives every block that the region contains once and nothing else,
and the bounds of the region hold the centres of these blocks. -/
structure ListedBy (s : σ) (r : Region σ) (c : Cursor σ) : Prop where
  lists : c.Lists s (fun b => r.containsBlock s b = true)
  center_mem : ∀ b, r.containsBlock s b = true → (r.bounds s).contains b.center = true

section Union

variable (h : ∀ r ∈ children, r.isBlockBounded s = true ∧
  ∃ c, r.cursor memo s frozen = .ok c ∧ r.ListedBy s c)

include h

lemma isBlockBounded_union_of_listed (id : Option UnionId) :
    isBlockBounded s (.union id children) = true :=
  isBlockBounded_union.2 fun r hr => (h r hr).1

lemma center_mem_union (hb : containsBlock s b (.union id children) = true) :
    (bounds s (.union id children)).contains b.center = true := by
  obtain ⟨r, hr, hrb⟩ := containsBlock_union.1 hb
  obtain ⟨-, c, -, hc⟩ := h r hr
  exact contains_bounds_union (fun r hr => isClean_bounds (h r hr).1) hr (hc.center_mem b hrb)

/-- Children with disjoint bounds share no block. -/
lemma pairwise_of_listed
    (hdisjoint : Strategy.pairwiseDisjoint (children.map (bounds s)) = true) :
    children.Pairwise fun r r' =>
      ∀ b, r.containsBlock s b = true → ¬ r'.containsBlock s b = true := by
  rw [Strategy.pairwiseDisjoint_iff, List.pairwise_map] at hdisjoint
  refine hdisjoint.imp_of_mem fun hr hr' hmiss b hb hb' => ?_
  obtain ⟨-, c, -, hc⟩ := h _ hr
  obtain ⟨-, c', -, hc'⟩ := h _ hr'
  exact Bounds.not_contains_of_disjoint hmiss (hc.center_mem b hb) (hc'.center_mem b hb')

/-- **A scan of the whole misses no block.** -/
lemma exists_scan_union (id : Option UnionId) :
    ∃ c, Cursor.scanBounds (toStatic s (.union id children))
        ((toStatic s (.union id children)).bounds s) = .ok c ∧
      c.Lists s (fun b => containsBlock s b (.union id children) = true) := by
  have hbounded := isBlockBounded_bounds (isBlockBounded_union_of_listed h id)
  obtain ⟨c, hc, hlists⟩ :=
    Cursor.exists_scanBounds s (toStatic s (.union id children)) hbounded
  refine ⟨c, by rw [bounds_toStatic, hc], hlists.congr fun b => ?_⟩
  rw [containsBlock, contains_toStatic, ← containsBlock, and_iff_right_iff_imp]
  exact fun hb => Bounds.covers_of_contains_center hbounded (center_mem_union h hb)

/-- **Every strategy lists the blocks of the union.** -/
theorem exists_cursor_union (hmemo : memo.SoundFor s id children) :
    ∃ c, cursor memo s frozen (.union id children) = .ok c ∧
      ListedBy s (.union id children) c := by
  obtain ⟨scan, hscan, hscan_lists⟩ := exists_scan_union h id
  have hchildren : ∀ r ∈ children, r.isBlockBounded s = true ∧ ∃ c, r.cursor memo s frozen = .ok c ∧
      c.Lists s (fun b => r.containsBlock s b = true) := fun r hr =>
    ⟨(h r hr).1, (h r hr).2.imp fun _ hc => ⟨hc.1, hc.2.lists⟩⟩
  obtain ⟨chain, hchain, hchain_mem, hchain_nodup⟩ := exists_cursorAll hchildren
  have hcenter : ∀ b, containsBlock s b (.union id children) = true →
      (bounds s (.union id children)).contains b.center = true := fun b => center_mem_union h
  rw [toStatic_union] at hscan
  have hmem (b) : b ∈ chain.toList s ↔ containsBlock s b (.union id children) = true :=
    (hchain_mem b).trans containsBlock_union.symm
  rw [cursor]
  split_ifs with hlisted
  · cases hstrategy : memo.strategy s (partsId id children) (parts s children) with
    | fullScan => exact ⟨scan, hscan, hscan_lists, hcenter⟩
    | childScan =>
      have hdisjoint := hmemo.parts.pairwiseDisjoint hstrategy
      rw [map_bounds_parts] at hdisjoint
      exact ⟨chain, hchain, ⟨hchain_nodup (pairwise_of_listed h hdisjoint), hmem⟩, hcenter⟩
    | filteredChildScan capacity =>
      refine ⟨.distinct ∅ chain, ?_, Cursor.Lists.distinct hmem, hcenter⟩
      rw [hchain]
      rfl
  · refine ⟨.pinned s scan, ?_, hscan_lists.pinned, hcenter⟩
    rw [hscan]
    rfl

end Union

/-! ## Cursors of all regions

What is true of the simplest cursors, and is kept as cursors are put together and as a part becomes
part of a whole, is true of the cursors of all regions. -/

/-- A property of the cursors that regions have in a state, which passes from parts to wholes. -/
structure PassesUp (s : σ) (P : Region σ → Cursor σ → Prop) : Prop where
  nil (r : Region σ) : P r .nil
  range (c : Cuboid) (blocks : BlockRange) (h : c.bounds.blockRange = .ok (some blocks)) :
    P (.cuboid c) (.range blocks blocks.lo)
  scan (r : Region σ) (blocks : BlockRange) (h : (r.bounds s).blockRange = .ok (some blocks)) :
    P r (.scan (r.toStatic s) blocks blocks.lo)
  append {r : Region σ} {first second : Cursor σ} (hfirst : P r first) (hsecond : P r second) :
    P r (.append first second)
  distinct {r : Region σ} {c : Cursor σ} (h : P r c) : P r (.distinct ∅ c)
  pinned {r : Region σ} {c : Cursor σ} (h : P r c) : P r (.pinned s c)
  child {r : Region σ} {c : Cursor σ} (id : Option UnionId) {children : List (Region σ)}
    (hbounded : ∀ r ∈ children, r.isBlockBounded s = true) (hr : r ∈ children) (h : P r c) :
    P (.union id children) c
  marked {inner : Region σ} {c : Cursor σ} (h : P inner c) : P (.static inner) c
  resolved {resolve : σ → Region σ} {c : Cursor σ} (h : P (resolve s) c) :
    P (.dynamic resolve) c

namespace PassesUp

variable {P : Region σ → Cursor σ → Prop} (h : PassesUp s P)

include h

lemma exists_scan (hbounded : r.isBlockBounded s = true) :
    ∃ c, Cursor.scanBounds (r.toStatic s) (r.bounds s) = .ok c ∧ P r c := by
  obtain ⟨range, hrange⟩ := Bounds.exists_blockRange (isBlockBounded_bounds hbounded)
  rw [Cursor.scanBounds, hrange]
  cases range with
  | none => exact ⟨.nil, rfl, h.nil r⟩
  | some blocks => exact ⟨_, rfl, h.scan r blocks hrange⟩

lemma exists_cursorAll
    (hchildren : ∀ child ∈ children, child.isBlockBounded s = true ∧
      ∃ c, child.cursor memo s frozen = .ok c ∧ P r c) :
    ∃ c, cursorAll memo s frozen children = .ok c ∧ P r c := by
  induction children with
  | nil => exact ⟨.nil, rfl, h.nil r⟩
  | cons child rest ih =>
    rw [List.forall_mem_cons] at hchildren
    obtain ⟨⟨hbounded, first, hfirst, hfirst_spec⟩, hrest⟩ := hchildren
    obtain ⟨others, hothers, hothers_spec⟩ := ih hrest
    refine ⟨.append first others, ?_, h.append hfirst_spec hothers_spec⟩
    rw [cursorAll, checkBlockBounded, if_pos hbounded, hfirst, hothers]
    rfl

/-- **A region that can be listed has a cursor with every property that passes up.** -/
theorem exists_cursor (memo : Memo) (frozen : Bool) (hbounded : r.isBlockBounded s = true) :
    ∃ c, r.cursor memo s frozen = .ok c ∧ P r c := by
  induction r generalizing frozen with
  | empty => exact ⟨.nil, rfl, h.nil _⟩
  | everywhere => cases hbounded
  | cuboid c =>
    obtain ⟨range, hrange⟩ := Bounds.exists_blockRange (show c.bounds.isBlockBounded = true from
      hbounded)
    rw [cursor, Cursor.ofBounds, hrange]
    cases range with
    | none => exact ⟨.nil, rfl, h.nil _⟩
    | some blocks => exact ⟨_, rfl, h.range c blocks hrange⟩
  | sphere b =>
    obtain ⟨scan, hscan, hspec⟩ := h.exists_scan hbounded
    rw [toStatic, bounds] at hscan
    exact ⟨scan, by rw [cursor, hscan], hspec⟩
  | cylinder c =>
    obtain ⟨scan, hscan, hspec⟩ := h.exists_scan hbounded
    rw [toStatic, bounds] at hscan
    exact ⟨scan, by rw [cursor, hscan], hspec⟩
  | union id children ih =>
    have hchildren := isBlockBounded_union.1 hbounded
    obtain ⟨scan, hscan, hscan_spec⟩ := h.exists_scan hbounded
    obtain ⟨chain, hchain, hchain_spec⟩ := h.exists_cursorAll fun r hr =>
      ⟨hchildren r hr, (ih r hr frozen (hchildren r hr)).imp fun _ hc =>
        ⟨hc.1, h.child id hchildren hr hc.2⟩⟩
    rw [← bounds_toStatic, toStatic_union] at hscan
    -- The property holds of every way to list a union, whichever strategy the memo has for it.
    rw [cursor]
    split_ifs
    · cases memo.strategy s (partsId id children) (parts s children) with
      | fullScan => exact ⟨scan, hscan, hscan_spec⟩
      | childScan => exact ⟨chain, hchain, hchain_spec⟩
      | filteredChildScan capacity =>
        exact ⟨.distinct ∅ chain, by rw [hchain]; rfl, h.distinct hchain_spec⟩
    · exact ⟨.pinned s scan, by rw [hscan]; rfl, h.pinned hscan_spec⟩
  | static inner ih =>
    obtain ⟨c, hc, hspec⟩ := ih false hbounded
    have hinner : inner.isBlockBounded s = true := hbounded
    refine ⟨c, ?_, h.marked hspec⟩
    rw [cursor, checkBlockBounded, if_pos hinner]
    exact hc
  | dynamic resolve ih =>
    obtain ⟨c, hc, hspec⟩ := ih s true hbounded
    have hresolved : (resolve s).isBlockBounded s = true := hbounded
    refine ⟨.pinned s c, ?_, h.pinned (h.resolved hspec)⟩
    rw [cursor, checkBlockBounded, if_pos hresolved, hc]
    rfl

end PassesUp

end Region
end RegionRules
