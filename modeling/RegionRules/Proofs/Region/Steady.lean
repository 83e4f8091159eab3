import RegionRules.Proofs.Region.Ledgers
import RegionRules.Proofs.Region.Unions

/-!
# One listing, one state

Between two calls for the next block the match may go on, and a cursor is asked in the state of the
call.  A cursor is *steady* if this makes no difference: it scans only regions that have the same
blocks in every state, and everything else it holds pinned to one state.  A step of a steady cursor
is the same in every state, and leaves a steady cursor (`Cursor.Steady.step_spec`); so the blocks
that it gives are those it would give if the state never changed (`Cursor.Steady.answers_eq`).

Honest regions make steady cursors, through any nesting (`Region.exists_steady_cursor`).  As what a
ledger remembers never shows either, a listing depends on nothing but the state in which it is made
(`Region.listing_spec`).
-/

set_option autoImplicit false

namespace RegionRules

variable {σ : Type}

namespace Cursor

/-! ## Cursors that the state does not matter to -/

/-- No answer of the cursor depends on the state in which it is asked. -/
inductive Steady : Cursor σ → Prop
  | nil : Steady .nil
  | range (blocks : BlockRange) (place : BlockPos) : Steady (.range blocks place)
  | scan (region : Region σ) (blocks : BlockRange) (place : BlockPos)
      (h : ∀ s t b, region.containsBlock s b = region.containsBlock t b) :
      Steady (.scan region blocks place)
  | append {first second : Cursor σ} (hfirst : Steady first) (hsecond : Steady second) :
      Steady (.append first second)
  | distinct (seen : Std.HashSet BlockPos) {c : Cursor σ} (h : Steady c) :
      Steady (.distinct seen c)
  | pinned (held : σ) (c : Cursor σ) : Steady (.pinned held c)

variable {c : Cursor σ}

namespace Steady

lemma rangeFrom (blocks : BlockRange) (place : Option BlockPos) :
    Steady (Cursor.rangeFrom blocks place : Cursor σ) := by
  cases place with
  | none => exact .nil
  | some place => exact .range blocks place

lemma scanFrom {region : Region σ}
    (h : ∀ s t b, region.containsBlock s b = region.containsBlock t b)
    (blocks : BlockRange) (place : Option BlockPos) :
    Steady (Cursor.scanFrom region blocks place) := by
  cases place with
  | none => exact .nil
  | some place => exact .scan region blocks place h

/-- **A step of a steady cursor is the same in every state, and leaves a steady cursor.** -/
theorem step_spec (h : c.Steady) (s t : σ) :
    c.step s = c.step t ∧ ∀ rest, (c.step s).rest? = some rest → rest.Steady := by
  induction h with
  | nil =>
    refine ⟨rfl, fun rest hrest => ?_⟩
    cases hrest
  | range blocks place =>
    refine ⟨rfl, fun rest hrest => ?_⟩
    cases hrest
    exact rangeFrom blocks _
  | scan region blocks place hregion =>
    refine ⟨by rw [step, step, hregion s t], fun rest hrest => ?_⟩
    rw [step] at hrest
    split_ifs at hrest <;>
    · cases hrest
      exact scanFrom hregion blocks _
  | append hfirst hsecond ih _ =>
    refine ⟨by rw [step, step, ih.1], fun rest hrest => ?_⟩
    rw [step] at hrest
    split at hrest
    · cases hrest
      exact hsecond
    · next left hstep =>
      cases hrest
      exact .append (ih.2 left (by rw [hstep]; rfl)) hsecond
    · next block left hstep =>
      cases hrest
      exact .append (ih.2 left (by rw [hstep]; rfl)) hsecond
  | distinct seen _ ih =>
    refine ⟨by rw [step, step, ih.1], fun rest hrest => ?_⟩
    rw [step] at hrest
    split at hrest
    · cases hrest
    · next left hstep =>
      cases hrest
      exact .distinct seen (ih.2 left (by rw [hstep]; rfl))
    · next block left hstep =>
      split_ifs at hrest <;>
      · cases hrest
        exact .distinct _ (ih.2 left (by rw [hstep]; rfl))
  | pinned held c =>
    refine ⟨rfl, fun rest hrest => ?_⟩
    rw [step] at hrest
    split at hrest
    · cases hrest
    · cases hrest
      exact .pinned held _
    · cases hrest
      exact .pinned held _

/-- So is the next block. -/
lemma next?_spec (h : c.Steady) (s t : σ) :
    c.next? s = c.next? t ∧ ∀ block rest, c.next? s = some (block, rest) → rest.Steady := by
  induction c using toList.induct s with
  | case1 c hstep =>
    obtain ⟨hsame, -⟩ := h.step_spec s t
    rw [next?_of_done hstep, next?_of_done (hsame.symm.trans hstep)]
    refine ⟨rfl, fun block rest hfound => ?_⟩
    cases hfound
  | case2 c rest hstep ih =>
    obtain ⟨hsame, hrest⟩ := h.step_spec s t
    rw [next?_of_skip hstep, next?_of_skip (hsame.symm.trans hstep)]
    exact ih (hrest rest (by rw [hstep]; rfl))
  | case3 c block rest hstep ih =>
    obtain ⟨hsame, hrest⟩ := h.step_spec s t
    rw [next?_of_yield hstep, next?_of_yield (hsame.symm.trans hstep)]
    refine ⟨rfl, fun _ _ heq => ?_⟩
    cases heq
    exact hrest rest (by rw [hstep]; rfl)

/-- **Whatever states a steady cursor is asked in, it gives the blocks of its list in one state,**
and none after the last. -/
theorem answers_eq (h : c.Steady) (s : σ) (states : List σ) :
    c.answers states = ((c.toList s).map some).takeD states.length none :=
  answers_eq_of_forall .nil (fun _ h t _ => h.next?_spec s t) h

end Steady

end Cursor

namespace Region

variable {s : σ} {r : Region σ}

/-- Cursors of honest regions are steady, as those of their parts are. -/
lemma passesUp_steady (s : σ) : PassesUp s fun r c => r.IsHonest → c.Steady where
  nil _ _ := .nil
  range _ blocks _ _ := .range blocks blocks.lo
  scan _ blocks _ hhonest := .scan _ blocks blocks.lo fun s' t b =>
    (hhonest.isFrozen_toStatic s).contains_congr s' t b.center
  append hfirst hsecond hhonest := .append (hfirst hhonest) (hsecond hhonest)
  distinct h hhonest := .distinct ∅ (h hhonest)
  pinned _ _ := .pinned s _
  child _ _ _ hr h hhonest := h (hhonest.child hr)
  marked h hhonest := h (hhonest.part (.marked _))
  resolved h hhonest := h (hhonest.part (.resolved _ s))

/-- **An honest region lists its blocks by a steady cursor.** -/
theorem exists_steady_cursor (memo : Memo) (frozen : Bool) (hhonest : r.IsHonest)
    (hbounded : r.isBlockBounded s = true) :
    ∃ c, r.cursor memo s frozen = .ok c ∧ c.Steady :=
  ((passesUp_steady s).exists_cursor memo frozen hbounded).imp fun _ hc => ⟨hc.1, hc.2 hhonest⟩

/-- **A listing depends on the state in which it is made, and on nothing else.**  Let a region be
honest, and let it be possible to list its blocks in a state.  Then there is a cursor over them.
Asked in any states whatsoever, it answers with the blocks that it has in that one state, in order,
and none after the last.  And whatever an atlas has come to remember, in whatever states, a later
listing is the one that its own state makes of the region when nothing is remembered. -/
theorem listing_spec (r : Region σ) (hhonest : r.IsHonest) (s : σ)
    (hbounded : r.isBlockBounded s = true) :
    (∀ memo : Memo, ∃ c, r.blocks memo s = .ok c ∧ ∀ states : List σ,
      c.answers states = ((c.toList s).map some).takeD states.length none) ∧
      ∀ (atlas : Atlas σ) (known : Set (Region σ)) (t : σ), Ledger.Made atlas.ledger known →
        r.IsMadeOf known → (atlas.blocks t r).1 = r.blocks ∅ t := by
  constructor
  · intro memo
    obtain ⟨c, hc, hsteady⟩ := exists_steady_cursor memo false hhonest hbounded
    refine ⟨c, ?_, hsteady.answers_eq s⟩
    rw [blocks, checkBlockBounded, if_pos hbounded]
    exact hc
  · intro atlas known t h hmade
    rw [Atlas.blocks_fst, h.blocks_eq hmade]

section Tracking

/-- A pair of blocks that remembers its strategy. -/
def pair : Region Bool := .union (some 0) [.block ⟨0, 0, 0⟩, .block ⟨3, 0, 0⟩]

/-- The pair, beside a block that follows the state. -/
def tracking : Region Bool := .dynamic fun moved =>
  .union none [.static pair, .block (if moved then ⟨7, 0, 0⟩ else ⟨5, 0, 0⟩)]

/-- The state changes after the first block, yet the block that follows it is listed where it was.
The pair remembers its strategy from then, and the next listing is as if it did not. -/
theorem tracking_listing :
    let shared : Region Bool × Ledger :=
      (Region.static (.union none [.block ⟨0, 0, 0⟩, .block ⟨3, 0, 0⟩])).hold .lent {}
    let atlas : Atlas Bool := ({ ledger := shared.2 } : Atlas Bool).add tracking
    let later : Atlas Bool := (atlas.blocks false tracking).2
    let known : Set (Region Bool) := {tracking, .static pair}
    (tracking.IsHonest ∧ tracking.isBlockBounded false = true ∧
      Ledger.Made later.ledger known ∧ tracking.IsMadeOf known) ∧
      (∃ c, (atlas.blocks false tracking).1 = .ok c ∧ c.answers [false, true, true, true] =
        [some ⟨0, 0, 0⟩, some ⟨3, 0, 0⟩, some ⟨5, 0, 0⟩, none]) ∧
      later.ledger.memo[0]? = some .childScan ∧
      (later.blocks true tracking).1 = tracking.blocks ∅ true := by
  intro shared atlas later known
  have hpair {P : Region Bool → Prop} (hblock : ∀ b, P (.block b)) (hunion : P pair) :
      pair.Throughout P :=
    .union hunion (forall_mem_pair.2 ⟨.cuboid (hblock _), .cuboid (hblock _)⟩)
  have htracking {P : Region Bool → Prop} (hblock : ∀ b, P (.block b)) (hunion : P pair)
      (hother : ∀ resolve, P (.dynamic resolve)) (hall : ∀ rs, P (.union none rs))
      (hmarked : P (.static pair)) : tracking.Throughout P :=
    .dynamic (hother _) fun moved => .union (hall _) (forall_mem_pair.2
      ⟨.static hmarked (hpair hblock hunion), .cuboid (hblock _)⟩)
  have hhonest : tracking.IsHonest := by
    refine htracking (by simp [block]) (by simp [pair]) (by simp) (by simp) fun inner h => ?_
    cases h
    exact hpair (by simp [block]) (by simp [pair])
  -- The ids of the region are those of the pair, which the ledger gave out.
  have hmade {known : Set (Region Bool)} (hknown : .static pair ∈ known) :
      tracking.IsMadeOf known := by
    refine htracking (by simp [block]) (fun i children _ => ?_) (by simp) (by simp) (by simp)
    exact ⟨.static pair, hknown, .single (.marked pair)⟩
  have hledger : Ledger.Made shared.2 {.static pair} := by
    have hfresh : Region.IsMadeOf (∅ : Set (Region Bool))
        (.static (.union none [.block ⟨0, 0, 0⟩, .block ⟨3, 0, 0⟩])) :=
      .static (by simp) (.union (by simp)
        (forall_mem_pair.2 ⟨.cuboid (by simp), .cuboid (by simp)⟩))
    rw [← insert_empty_eq]
    exact Ledger.Made.new.hold .lent _ hfresh
  have hatlas : Ledger.Made atlas.ledger known :=
    Atlas.made_add { ledger := shared.2 } hledger (hmade rfl)
  have hlater : Ledger.Made later.ledger known :=
    atlas.made_blocks hatlas false hhonest (hmade (.inr rfl))
  have hbounded : tracking.isBlockBounded false = true := by decide +kernel
  obtain ⟨hcursor, hagain⟩ := listing_spec tracking hhonest false hbounded
  obtain ⟨c, hc, hanswers⟩ := hcursor atlas.ledger.memo
  have hlist : c.toList false = [⟨0, 0, 0⟩, ⟨3, 0, 0⟩, ⟨5, 0, 0⟩] := by
    rw [← blockList_eq hc]
    decide +kernel
  refine ⟨⟨hhonest, hbounded, hlater, hmade (.inr rfl)⟩, ⟨c, ?_, ?_⟩, by decide +kernel,
    hagain later known true hlater (hmade (.inr rfl))⟩
  · rw [Atlas.blocks_fst, hc]
  · rw [hanswers, hlist]
    rfl

end Tracking

end Region
end RegionRules
