import RegionRules.Proofs.Region.Transparency

/-!
# Freezing a region

Freezing fixes a region in the state of the moment.  If the region is honest, nothing dynamic is
left at any depth, and so no later state makes a difference: not to the points, bounds and tests of
the frozen form, nor to the blocks that it or a copy of it lists, whatever their unions remember by
then.  Freezing again changes nothing (`freezing_spec`).

A dishonest region may keep a dynamic part below a `static` mark, which freezing leaves alone.
-/

set_option autoImplicit false

namespace RegionRules

variable {σ : Type}

/-- The reading of a steady cursor is its list in any one state. -/
lemma Cursor.Steady.reading_eq {c : Cursor σ} (h : c.Steady) (s : σ) :
    c.reading = fun states => ((c.toList s).map some).takeD states.length none :=
  funext (h.answers_eq s)

namespace Region

open Cursor (readings)

variable {r : Region σ}

namespace IsFrozen

lemma isHonest (h : r.IsFrozen) : r.IsHonest := by
  induction h with
  | intro r _ part ih =>
    refine .intro r ?_ ih
    rintro inner rfl
    exact part inner (.marked inner)

lemma isStatic (h : r.IsFrozen) : r.isStatic = true := by
  induction r with
  | union id children ih =>
    exact isStaticAll_eq_true.2 fun r hr => ih r hr (h.child hr)
  | dynamic resolve => exact absurd rfl (h.here resolve)
  | _ => rfl

lemma bare (h : r.IsFrozen) : r.bare.IsFrozen := by
  refine (throughout_bare_iff (fun r => ?_) r).2 h
  cases r <;> simp [Region.bare]

lemma checkBlockBounded_congr (h : r.IsFrozen) (s t : σ) :
    r.checkBlockBounded s = r.checkBlockBounded t := by
  rw [checkBlockBounded, checkBlockBounded, h.isBlockBounded_congr s t, h.bounds_congr s t]

/-- **A frozen region makes the same cursor in every state.** -/
theorem cursor_congr (h : r.IsFrozen) (memo : Memo) (s t : σ) (frozen : Bool) :
    r.cursor memo s frozen = r.cursor memo t frozen := by
  induction r generalizing frozen with
  | union id children ih =>
    have hchildren : ∀ r ∈ children, r.IsFrozen := fun r hr => h.child hr
    have hall : cursorAll memo s false children = cursorAll memo t false children :=
      cursorAll_congr fun r hr =>
        ⟨(hchildren r hr).checkBlockBounded_congr s t, ih r hr (hchildren r hr) false⟩
    have hstatic : isStaticAll children = true := h.isStatic
    rw [cursor_union_of_isStatic hstatic, cursor_union_of_isStatic hstatic, Memo.strategy,
      Memo.strategy, select_congr (fun r hr => (hchildren r hr).isHonest) s t]
    cases (memo.remembered? id).getD (.select t children) with
    | fullScan => rw [listBy, listBy, h.bounds_congr s t]
    | childScan => exact hall
    | filteredChildScan capacity => rw [listBy, listBy, hall]
  | static inner ih =>
    have hinner : inner.IsFrozen := h.part (.marked inner)
    rw [cursor, cursor, hinner.checkBlockBounded_congr s t, ih hinner]
  | dynamic resolve => exact absurd rfl (h.here resolve)
  | _ => rfl

lemma blocks_congr (h : r.IsFrozen) (memo : Memo) (s t : σ) :
    r.blocks memo s = r.blocks memo t := by
  rw [blocks, blocks, h.checkBlockBounded_congr s t, h.cursor_congr memo s t]

/-- A frozen region has one list of blocks, if any, whatever states it is asked for it in. -/
lemma exists_readings_blocks (h : r.IsFrozen) (memo : Memo) (s : σ) :
    ∃ listing : Except BlockError (List BlockPos), listing.isOk = r.isBlockBounded s ∧
      readings (r.blocks memo s) =
        listing.map fun blocks states => (blocks.map some).takeD states.length none := by
  by_cases hbounded : r.isBlockBounded s = true
  · obtain ⟨c, hc, hsteady⟩ := exists_steady_cursor memo false h.isHonest hbounded
    refine ⟨.ok (c.toList s), hbounded.symm, ?_⟩
    rw [blocks_eq_cursor memo hbounded, hc]
    exact congrArg Except.ok (hsteady.reading_eq s)
  · refine ⟨.error (.notBlockBounded (r.bounds s)), (Bool.eq_false_iff.2 hbounded).symm, ?_⟩
    rw [blocks, checkBlockBounded, if_neg hbounded]
    rfl

end IsFrozen

/-- **Freezing an honest region takes the state out of it.**  Let `frozen` be the frozen form of an
honest region in a state.  It counts as static and has no dynamic part at any depth.  In every state
it has the points and the bounds that the region had in the state of the freezing, and it counts as
empty or can be listed if the region did or could; and to freeze it again gives the same region.
Also there is one list of blocks that all its copies give, or one error if the region could not be
listed: in every state, whatever was listed, asked, copied and frozen before, and whatever states
they are asked for the blocks in. -/
theorem freezing_spec (r : Region σ) (hhonest : r.IsHonest) (s : σ) :
    let frozen := r.toStatic s
    (frozen.isStatic = true ∧ frozen.IsFrozen) ∧
      (∀ t, (∀ p, frozen.contains t p = r.contains s p) ∧ frozen.bounds t = r.bounds s ∧
        frozen.isEmpty t = r.isEmpty s ∧ frozen.isBlockBounded t = r.isBlockBounded s ∧
        frozen.toStatic t = frozen) ∧
      ∃ listing : Except BlockError (List BlockPos), listing.isOk = r.isBlockBounded s ∧
        ∀ (atlas : Atlas σ) (known : Set (Region σ)), atlas.Used known →
          ∀ copy : Region σ, copy.IsMadeOf known → copy.bare = frozen.bare →
            ∀ t, readings (atlas.blocks t copy).1 =
              listing.map fun blocks states => (blocks.map some).takeD states.length none := by
  intro frozen
  have hfrozen : frozen.IsFrozen := hhonest.isFrozen_toStatic s
  have hstatic : frozen.isStatic = true := isStatic_toStatic s r
  refine ⟨⟨hstatic, hfrozen⟩, fun t => ⟨fun p => ?_, ?_, ?_, ?_, ?_⟩, ?_⟩
  · rw [hfrozen.contains_congr t s, contains_toStatic]
  · rw [hfrozen.bounds_congr t s, bounds_toStatic]
  · rw [hfrozen.isEmpty_congr t s, isEmpty_toStatic]
  · rw [hfrozen.isBlockBounded_congr t s, isBlockBounded_toStatic]
  · exact toStatic_of_isStatic hstatic t
  · obtain ⟨listing, hok, hlisting⟩ := hfrozen.bare.exists_readings_blocks ∅ s
    rw [isBlockBounded_bare, isBlockBounded_toStatic] at hok
    refine ⟨listing, hok, fun atlas known hused copy hmade hcopy t => ?_⟩
    have htransparent : frozen.IsTransparent :=
      isTransparent_of_isSteadfast hfrozen.isHonest.throughout_isSteadfast
    rw [htransparent atlas known hused copy hmade hcopy t, hfrozen.bare.blocks_congr ∅ t s,
      hlisting]

section Nested

/-- A dynamic part that resolves to a union with a dynamic part of its own, beside a block that is
marked as static. -/
def nested : Region Bool := .dynamic fun _ =>
  .union none [.dynamic fun moved => .block (if moved then ⟨7, 0, 0⟩ else ⟨5, 0, 0⟩),
    .static (.block ⟨0, 0, 0⟩)]

/-- Frozen in one state and listed there, the region is the same in the other, where the dynamic
part has gone elsewhere. -/
theorem nested_freezing :
    let frozen : Region Bool := nested.toStatic false
    let copy : Region Bool := (frozen.hold .owned {}).1
    let atlas : Atlas Bool := ({} : Atlas Bool).add frozen
    let later : Atlas Bool := (atlas.blocks false copy).2
    (nested.IsHonest ∧ later.Used {copy} ∧ copy.IsMadeOf {copy} ∧ copy.bare = frozen.bare) ∧
      (frozen.isStatic = true ∧ frozen.IsFrozen) ∧
      (frozen.bounds true = nested.bounds false ∧ nested.bounds true ≠ nested.bounds false) ∧
      frozen.toStatic true = frozen ∧
      readings (later.blocks true copy).1 = readings (atlas.blocks false copy).1 ∧
      (later.blocks true copy).1.map (·.toList true) =
        .ok [⟨5, 0, 0⟩, ⟨0, 0, 0⟩] := by
  intro frozen copy atlas later
  have hhonest : nested.IsHonest := by
    refine .dynamic (by simp) fun _ => .union (by simp) (forall_mem_pair.2
      ⟨.dynamic (by simp) fun _ => .cuboid (by simp), .static ?_ (.cuboid (by simp))⟩)
    rintro inner ⟨⟩
    exact .cuboid (by simp)
  have hcopy : copy.IsMadeOf {copy} := isMadeOf_of_mem rfl
  have hbare : copy.bare = frozen.bare := bare_hold .owned {} frozen
  have hatlas : atlas.Used {copy} := by
    rw [← insert_empty_eq]
    exact Atlas.Used.new.add frozen (isMadeOf_bare ∅ frozen)
  have hlater : later.Used {copy} := hatlas.blocks false copy hcopy
  obtain ⟨hfrozen, hsummaries, listing, -, hlisting⟩ := freezing_spec nested hhonest false
  refine ⟨⟨hhonest, hlater, hcopy, hbare⟩, hfrozen,
    ⟨(hsummaries true).2.1, by decide +kernel⟩, (hsummaries true).2.2.2.2, ?_, by decide +kernel⟩
  exact (hlisting later {copy} hlater copy hcopy hbare true).trans
    (hlisting atlas {copy} hatlas copy hcopy hbare false).symm

end Nested

end Region
end RegionRules
