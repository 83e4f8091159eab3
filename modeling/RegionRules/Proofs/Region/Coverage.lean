import RegionRules.Proofs.Bounds.Columns
import RegionRules.Proofs.Region.Steady

/-!
# Listed blocks have their columns

The columns of a region are taken from its bounds, its blocks from the bounds of parts, however
deep.  They meet all the same: every range that a cursor of the region walks through lies in the
range of the bounds of the whole (`passesUp_within`).  What the cursor tests along the way does
not matter for this, nor does the strategy of a union, and the state may change meanwhile.
-/

set_option autoImplicit false

namespace RegionRules

variable {σ : Type}

namespace Cursor

/-! ## Cursors that stay within a set of blocks -/

/-- The cursor walks through ranges whose blocks are all in a set, and each is at a place of its
own range. -/
inductive Within (P : BlockPos → Prop) : Cursor σ → Prop
  | nil : Within P .nil
  | range {blocks : BlockRange} {place : BlockPos} (hplace : blocks.Contains place)
      (h : ∀ b, blocks.Contains b → P b) : Within P (.range blocks place)
  | scan (region : Region σ) {blocks : BlockRange} {place : BlockPos}
      (hplace : blocks.Contains place) (h : ∀ b, blocks.Contains b → P b) :
      Within P (.scan region blocks place)
  | append {first second : Cursor σ} (hfirst : Within P first) (hsecond : Within P second) :
      Within P (.append first second)
  | distinct (seen : Std.HashSet BlockPos) {c : Cursor σ} (h : Within P c) :
      Within P (.distinct seen c)
  | pinned (held : σ) {c : Cursor σ} (h : Within P c) : Within P (.pinned held c)

/-- What a step leaves is within the set, and so is the block that it may produce. -/
def Step.Within (P : BlockPos → Prop) : Step σ → Prop
  | .done => True
  | .skip rest => rest.Within P
  | .yield block rest => P block ∧ rest.Within P

variable {s : σ} {c : Cursor σ} {b : Bounds} {P Q : BlockPos → Prop}

namespace Within

lemma mono (hPQ : ∀ b, P b → Q b) (h : c.Within P) : c.Within Q := by
  induction h with
  | nil => exact .nil
  | range hplace h => exact .range hplace fun b hb => hPQ b (h b hb)
  | scan region hplace h => exact .scan region hplace fun b hb => hPQ b (h b hb)
  | append _ _ ihfirst ihsecond => exact .append ihfirst ihsecond
  | distinct seen _ ih => exact .distinct seen ih
  | pinned held _ ih => exact .pinned held ih

section Range

variable {blocks : BlockRange} {place : BlockPos} (hplace : blocks.Contains place)
  (h : ∀ b, blocks.Contains b → P b)

include hplace h

lemma rangeFrom : Within P (Cursor.rangeFrom blocks (blocks.next? place) : Cursor σ) := by
  cases hnext : blocks.next? place with
  | none => exact .nil
  | some next => exact .range (BlockRange.next?_eq_some hplace hnext).1 h

lemma scanFrom (region : Region σ) :
    Within P (Cursor.scanFrom region blocks (blocks.next? place)) := by
  cases hnext : blocks.next? place with
  | none => exact .nil
  | some next => exact .scan region (BlockRange.next?_eq_some hplace hnext).1 h

end Range

/-- **A step stays within the set.** -/
theorem step_spec (h : c.Within P) (s : σ) : (c.step s).Within P := by
  induction h generalizing s with
  | nil => trivial
  | range hplace h => exact ⟨h _ hplace, rangeFrom hplace h⟩
  | scan region hplace h =>
    rw [step]
    split_ifs
    exacts [⟨h _ hplace, scanFrom hplace h region⟩, scanFrom hplace h region]
  | @append first second _ hsecond ih _ =>
    specialize ih s
    rw [step]
    cases hstep : first.step s with
    | done => exact hsecond
    | skip rest =>
      rw [hstep] at ih
      exact .append ih hsecond
    | yield block rest =>
      rw [hstep] at ih
      exact ⟨ih.1, .append ih.2 hsecond⟩
  | @distinct seen blocks _ ih =>
    specialize ih s
    rw [step]
    cases hstep : blocks.step s with
    | done => trivial
    | skip rest =>
      rw [hstep] at ih
      exact .distinct seen ih
    | yield block rest =>
      rw [hstep] at ih
      dsimp only
      split_ifs
      exacts [.distinct seen ih.2, ⟨ih.1, .distinct _ ih.2⟩]
  | @pinned held blocks _ ih =>
    specialize ih held
    rw [step]
    cases hstep : blocks.step held with
    | done => trivial
    | skip rest =>
      rw [hstep] at ih
      exact .pinned held ih
    | yield block rest =>
      rw [hstep] at ih
      exact ⟨ih.1, .pinned held ih.2⟩

lemma next?_spec (h : c.Within P) {block : BlockPos} {rest : Cursor σ}
    (hnext : c.next? s = some (block, rest)) : P block ∧ rest.Within P := by
  have hspec := h.step_spec s
  induction c using toList.induct s with
  | case1 c hstep =>
    rw [next?_of_done hstep] at hnext
    cases hnext
  | case2 c left hstep ih =>
    rw [next?_of_skip hstep] at hnext
    rw [hstep] at hspec
    exact ih hspec hnext (Within.step_spec hspec s)
  | case3 c found left hstep ih =>
    rw [next?_of_yield hstep] at hnext
    rw [hstep] at hspec
    cases hnext
    exact hspec

/-- **All answers of the cursor are in the set,** in whatever states it is asked. -/
theorem of_mem_answers (h : c.Within P) {states : List σ} {block : BlockPos}
    (hb : some block ∈ c.answers states) : P block := by
  induction states generalizing c with
  | nil => cases hb
  | cons t ts ih =>
    rw [answers] at hb
    cases hnext : c.next? t with
    | none =>
      simp only [hnext, List.mem_cons, reduceCtorEq, false_or] at hb
      exact ih .nil hb
    | some found =>
      obtain ⟨hfound, hrest⟩ := h.next?_spec hnext
      simp only [hnext, List.mem_cons, Option.some_inj] at hb
      rcases hb with rfl | hb
      · exact hfound
      · exact ih hrest hb

end Within

end Cursor

namespace Region

variable {s : σ} {r : Region σ} {children : List (Region σ)}

/-- The bounds of a union have the blocks that the bounds of a child have. -/
lemma covers_bounds_union (id : Option UnionId) {p : BlockPos}
    (hbounded : ∀ r ∈ children, r.isBlockBounded s = true) (hr : r ∈ children)
    (hp : (r.bounds s).Covers p) : (bounds s (.union id children)).Covers p := by
  rw [bounds_union]
  exact Bounds.covers_foldl_union (Bounds.isBlockBounded_of_isEmpty Bounds.isEmpty_empty)
    (List.forall_mem_map.2 fun r hr => isBlockBounded_bounds (hbounded r hr))
    (.inr ⟨_, List.mem_map_of_mem hr, hp⟩)

/-- **A region walks through nothing but the range of its bounds.** -/
theorem passesUp_within (s : σ) : PassesUp s fun r c => c.Within (r.bounds s).Covers where
  nil _ := .nil
  range _ blocks h := .range blocks.contains_lo fun _ => (Bounds.covers_iff_contains h).2
  scan _ blocks h := .scan _ blocks.contains_lo fun _ => (Bounds.covers_iff_contains h).2
  append hfirst hsecond := .append hfirst hsecond
  distinct h := .distinct ∅ h
  pinned h := .pinned s h
  child id _ hbounded hr h := h.mono fun _ => covers_bounds_union id hbounded hr
  marked h := h
  resolved h := h

/-- **Every listed block has its column.**  Let a region list its blocks in a state, by whatever
strategies its unions remember.  Each block that it answers with, in whatever states it is asked
for them, is in the range of the bounds that the region has in the state of the listing; and if its
columns can be told in that state, the block's column is one of them. -/
theorem columns_of_mem_answers (r : Region σ) (memo : Memo) (s : σ) {c : Cursor σ}
    (h : r.blocks memo s = .ok c) {states : List σ} {b : BlockPos}
    (hb : some b ∈ c.answers states) :
    (r.bounds s).Covers b ∧ ∀ columns, r.columns s = .ok columns → Column.ofBlock b ∈ columns := by
  obtain ⟨c', hc', hwithin⟩ :=
    (passesUp_within s).exists_cursor memo false (isBlockBounded_of_blocks h)
  rw [blocks_eq_cursor memo (isBlockBounded_of_blocks h), hc'] at h
  cases h
  have hcovers : (r.bounds s).Covers b := hwithin.of_mem_answers hb
  exact ⟨hcovers, fun columns hcolumns => hcovers.ofBlock_mem_columns hcolumns⟩

/-- A block that follows the state, beside one that does not. -/
def straggler : Region Bool :=
  .union none [.dynamic fun moved => .block (if moved then ⟨40, 0, 0⟩ else ⟨-1, 0, 0⟩),
    .block ⟨3, 0, -1⟩]

/-- The state changes while the blocks are read.  The last of them is still listed where it was, in
one of the four columns from then. -/
theorem straggler_columns :
    ∃ c, straggler.blocks ∅ false = .ok c ∧
      c.answers [false, true] = [some ⟨3, 0, -1⟩, some ⟨-1, 0, 0⟩] ∧
      (straggler.bounds false).Covers ⟨-1, 0, 0⟩ ∧
      straggler.columns false = .ok [⟨-1, -1⟩, ⟨-1, 0⟩, ⟨0, -1⟩, ⟨0, 0⟩] ∧
      Column.ofBlock ⟨-1, 0, 0⟩ ∈ ([⟨-1, -1⟩, ⟨-1, 0⟩, ⟨0, -1⟩, ⟨0, 0⟩] : List Column) := by
  have hhonest : straggler.IsHonest :=
    .union (by simp) (forall_mem_pair.2
      ⟨.dynamic (by simp) fun _ => .cuboid (by simp), .cuboid (by simp)⟩)
  have hbounded : straggler.isBlockBounded false = true := by decide +kernel
  have hcolumns : straggler.columns false = .ok [⟨-1, -1⟩, ⟨-1, 0⟩, ⟨0, -1⟩, ⟨0, 0⟩] := by
    decide +kernel
  obtain ⟨c, hc, hsteady⟩ := exists_steady_cursor ∅ false hhonest hbounded
  rw [← blocks_eq_cursor ∅ hbounded] at hc
  have hlist : c.toList false = [⟨3, 0, -1⟩, ⟨-1, 0, 0⟩] := by
    rw [← blockList_eq hc]
    decide +kernel
  have hanswers : c.answers [false, true] = [some ⟨3, 0, -1⟩, some ⟨-1, 0, 0⟩] := by
    rw [hsteady.answers_eq false, hlist]
    rfl
  have hlast : some ⟨-1, 0, 0⟩ ∈ c.answers [false, true] := by simp [hanswers]
  obtain ⟨hcovers, hmem⟩ := columns_of_mem_answers straggler ∅ false hc hlast
  exact ⟨c, hc, hanswers, hcovers, hcolumns, hmem _ hcolumns⟩

end Region
end RegionRules
