import RegionRules.Proofs.Region.Shapes

/-!
# Listings that fail

Listing the blocks of a region fails at the first test or not at all (`Region.blocks_eq_error_iff`).
The test goes through the tree of the region as the state resolves it, and what comes after has many
places to fail: the bounds of every union, the lists of the parts, the scan of a frozen form.  They
all look at boxes; and if the test lets the region pass, it lets every part pass
(`isBlockBounded_of_below`), and the boxes of all parts can be listed.

The volume looks at the bounds of the whole alone.  The union of two boxes that are free of NaN can
be listed only if both can (`Bounds.isBlockBounded_of_union`), so that for such regions the volume
fails when the listing does.  A box with NaN hides behind the box of a later sibling.
-/

set_option autoImplicit false

namespace RegionRules

/-! ## Boxes -/

namespace Bounds

variable {a b acc : Bounds} {bs : List Bounds} {error : BlockError}

lemma isBlockBounded_unbounded : unbounded.isBlockBounded = false := by decide +kernel

lemma blockRange_eq_error_iff :
    b.blockRange = .error error ↔ b.isBlockBounded = false ∧ error = .notBlockBounded b := by
  cases h : b.isBlockBounded with
  | true =>
    obtain ⟨range, hrange⟩ := exists_blockRange h
    simp [hrange]
  | false => simp [blockRange, h, eq_comm]

lemma blockVolume_eq_error_iff :
    b.blockVolume = .error error ↔ b.isBlockBounded = false ∧ error = .notBlockBounded b := by
  rw [← blockRange_eq_error_iff, blockVolume]
  cases b.blockRange <;> simp [Except.map]

/-- A box that is not empty can be listed if its faces are in the world of blocks. -/
lemma isBlockBounded_iff_faces (he : b.isEmpty = false) :
    b.isBlockBounded = true ↔
      ∀ i, lowestFace ≤ b.lower.coord i ∧ b.upper.coord i ≤ highestFace := by
  rw [isBlockBounded, he, Bool.false_or, Bool.and_eq_true, Vec3.allLe_iff, Vec3.allLe_iff]
  simp only [Vec3.coord_splat, forall_and]

/-- **If a union of boxes free of NaN can be listed, so can the boxes.** -/
lemma isBlockBounded_of_union (ha : a.IsClean) (hb : b.IsClean)
    (h : (a.union b).isBlockBounded = true) :
    a.isBlockBounded = true ∧ b.isBlockBounded = true := by
  obtain ⟨ea, hunion⟩ | ⟨-, eb, hunion⟩ | ⟨ea, eb, hunion⟩ := union_cases a b <;> rw [hunion] at h
  · exact ⟨isBlockBounded_of_isEmpty ea, h⟩
  · exact ⟨h, isBlockBounded_of_isEmpty eb⟩
  -- Without NaN the faces of the union lie beyond those of either box.
  have haround := (ha.naNFree ea).hull_around (hb.naNFree eb)
  rw [isBlockBounded_iff_faces ((ha.naNFree ea).isEmpty_hull (hb.naNFree eb) ea)] at h
  rw [isBlockBounded_iff_faces ea, isBlockBounded_iff_faces eb]
  exact ⟨fun i => ⟨Binary64.le_trans_num (h i).1 (haround i).1.1,
      Binary64.le_trans_num (haround i).1.2 (h i).2⟩,
    fun i => ⟨Binary64.le_trans_num (h i).1 (haround i).2.1,
      Binary64.le_trans_num (haround i).2.2 (h i).2⟩⟩

lemma isBlockBounded_of_foldl_union (hacc : acc.IsClean) (hbs : ∀ b ∈ bs, b.IsClean)
    (h : (bs.foldl union acc).isBlockBounded = true) :
    acc.isBlockBounded = true ∧ ∀ b ∈ bs, b.isBlockBounded = true := by
  induction bs generalizing acc with
  | nil => exact ⟨h, fun b hb => nomatch hb⟩
  | cons b bs ih =>
    rw [List.forall_mem_cons] at hbs ⊢
    obtain ⟨hunion, hrest⟩ := ih (hacc.union hbs.1) hbs.2 h
    obtain ⟨hacc', hb⟩ := isBlockBounded_of_union hacc hbs.1 hunion
    exact ⟨hacc', hb, hrest⟩

end Bounds

namespace Region

variable {σ : Type} {memo : Memo} {s : σ} {r r' : Region σ}

/-! ## The resolved tree -/

/-- The first region is right below the second as the state resolves it: a child, what a mark marks,
or what a dynamic part resolves to. -/
inductive IsPartIn (s : σ) : Region σ → Region σ → Prop
  | child {r : Region σ} {children : List (Region σ)} (id : Option UnionId) (hr : r ∈ children) :
      IsPartIn s r (.union id children)
  | marked (inner : Region σ) : IsPartIn s inner (.static inner)
  | resolved (resolve : σ → Region σ) : IsPartIn s (resolve s) (.dynamic resolve)

/-- **What lets a region pass lets every region below it pass.** -/
lemma isBlockBounded_of_below (h : r.isBlockBounded s = true)
    (hbelow : Relation.ReflTransGen (IsPartIn s) r' r) : r'.isBlockBounded s = true := by
  induction hbelow with
  | refl => exact h
  | tail _ hpart ih =>
    refine ih ?_
    cases hpart with
    | child id hr => exact isBlockBounded_union.1 h _ hr
    | marked inner => exact h
    | resolved resolve => exact h

/-! ## Steps of a listing -/

/-- Nothing that a listing does with the region can fail in the state, whatever strategies are
remembered: not the range of its bounds, not its own list nor that of its frozen form, and not the
scan of the frozen form. -/
structure NeverFails (s : σ) (r : Region σ) : Prop where
  blockRange : ∃ range, (r.bounds s).blockRange = .ok range
  blocks : ∀ memo, ∃ c, r.blocks memo s = .ok c
  cursor : ∀ memo frozen, ∃ c, r.cursor memo s frozen = .ok c
  frozen_blocks : ∀ memo, ∃ c, (r.toStatic s).blocks memo s = .ok c
  frozen_scan : ∃ c, Cursor.scanBounds (r.toStatic s) ((r.toStatic s).bounds s) = .ok c

lemma passesUp_trivial (s : σ) : PassesUp s fun _ _ => True where
  nil _ := trivial
  range _ _ _ := trivial
  scan _ _ _ := trivial
  append _ _ := trivial
  distinct _ := trivial
  pinned _ := trivial
  child _ _ _ _ _ := trivial
  marked _ := trivial
  resolved _ := trivial

lemma exists_cursor (memo : Memo) (frozen : Bool) (h : r.isBlockBounded s = true) :
    ∃ c, r.cursor memo s frozen = .ok c := by
  obtain ⟨c, hc, -⟩ := (passesUp_trivial s).exists_cursor memo frozen h
  exact ⟨c, hc⟩

lemma exists_blocks (memo : Memo) (h : r.isBlockBounded s = true) :
    ∃ c, r.blocks memo s = .ok c := by
  rw [blocks_eq_cursor memo h]
  exact exists_cursor memo false h

lemma neverFails_of_isBlockBounded (h : r.isBlockBounded s = true) : r.NeverFails s where
  blockRange := Bounds.exists_blockRange (isBlockBounded_bounds h)
  blocks memo := exists_blocks memo h
  cursor memo frozen := exists_cursor memo frozen h
  frozen_blocks memo := exists_blocks memo (by rwa [isBlockBounded_toStatic])
  frozen_scan := by
    obtain ⟨c, hc, -⟩ := (passesUp_trivial s).exists_scan h
    exact ⟨c, by rwa [bounds_toStatic]⟩

/-! ## Bounds of the whole -/

lemma isClean_bounds_of_below (h : ∀ r', Relation.ReflTransGen (IsPartIn s) r' r → r'.IsShape →
    (r'.bounds s).NaNFree) : (r.bounds s).IsClean := by
  induction r with
  | empty => exact .inl Bounds.isEmpty_empty
  | everywhere => exact .inr Bounds.naNFree_unbounded
  | cuboid c => exact .inr (h _ .refl (.cuboid c))
  | sphere b => exact .inr (h _ .refl (.sphere b))
  | cylinder c => exact .inr (h _ .refl (.cylinder c))
  | union id children ih =>
    rw [bounds_union]
    refine Bounds.foldl_union_induction (fun ha hb => ha.union hb) (.inl Bounds.isEmpty_empty) ?_
    rw [List.forall_mem_map]
    exact fun r hr => ih r hr fun r' hbelow => h r' (hbelow.tail (.child id hr))
  | static inner ih => exact ih fun r' hbelow => h r' (hbelow.tail (.marked inner))
  | dynamic resolve ih => exact ih s fun r' hbelow => h r' (hbelow.tail (.resolved resolve))

/-- **Without NaN, the blocks of a region can be listed if those of its bounds can.** -/
theorem isBlockBounded_of_bounds (h : ∀ r', Relation.ReflTransGen (IsPartIn s) r' r → r'.IsShape →
    (r'.bounds s).NaNFree) (hbounds : (r.bounds s).isBlockBounded = true) :
    r.isBlockBounded s = true := by
  induction r with
  | empty => rfl
  | everywhere => exact absurd hbounds (Bool.eq_false_iff.1 Bounds.isBlockBounded_unbounded)
  | cuboid c => exact hbounds
  | sphere b => exact hbounds
  | cylinder c => exact hbounds
  | union id children ih =>
    have hchild {r : Region σ} (hr : r ∈ children) :
        ∀ r', Relation.ReflTransGen (IsPartIn s) r' r → r'.IsShape → (r'.bounds s).NaNFree :=
      fun r' hbelow => h r' (hbelow.tail (.child id hr))
    rw [bounds_union] at hbounds
    have hparts := (Bounds.isBlockBounded_of_foldl_union (.inl Bounds.isEmpty_empty)
      (List.forall_mem_map.2 fun r hr => isClean_bounds_of_below (hchild hr)) hbounds).2
    rw [List.forall_mem_map] at hparts
    exact isBlockBounded_union.2 fun r hr => ih r hr (hchild hr) (hparts r hr)
  | static inner ih => exact ih (fun r' hbelow => h r' (hbelow.tail (.marked inner))) hbounds
  | dynamic resolve ih =>
    exact ih s (fun r' hbelow => h r' (hbelow.tail (.resolved resolve))) hbounds

/-! ## Errors -/

/-- **A listing fails at its first test or not at all.**  It fails just if the region is not
block-bounded in the state, and the error carries the bounds of the region.  Once the test is
passed, nothing can fail at any region below.  And if no box, ball or cylinder below has bounds with
NaN, the volume fails just when the listing does, with the same error. -/
theorem blocks_eq_error_iff (memo : Memo) (s : σ) (r : Region σ) :
    (∀ error, r.blocks memo s = .error error ↔
      r.isBlockBounded s = false ∧ error = .notBlockBounded (r.bounds s)) ∧
    (r.isBlockBounded s = true →
      ∀ r', Relation.ReflTransGen (IsPartIn s) r' r → r'.NeverFails s) ∧
    ((∀ r', Relation.ReflTransGen (IsPartIn s) r' r → r'.IsShape → (r'.bounds s).NaNFree) →
      ∀ error, r.blocks memo s = .error error ↔ r.blockVolume s = .error error) := by
  have hblocks (error : BlockError) : r.blocks memo s = .error error ↔
      r.isBlockBounded s = false ∧ error = .notBlockBounded (r.bounds s) := by
    cases h : r.isBlockBounded s with
    | true =>
      obtain ⟨c, hc⟩ := exists_blocks memo h
      simp [hc]
    | false =>
      have hfails : r.blocks memo s = .error (.notBlockBounded (r.bounds s)) := by
        rw [blocks, checkBlockBounded, h, if_neg Bool.false_ne_true]
        rfl
      simp [hfails, eq_comm]
  refine ⟨hblocks, fun h r' hbelow => ?_, fun hnan error => ?_⟩
  · exact neverFails_of_isBlockBounded (isBlockBounded_of_below h hbelow)
  · have hbounded : r.isBlockBounded s = (r.bounds s).isBlockBounded :=
      Bool.eq_iff_iff.2 ⟨isBlockBounded_bounds, isBlockBounded_of_bounds hnan⟩
    rw [hblocks, blockVolume, Bounds.blockVolume_eq_error_iff, hbounded]

section Rifts

/-- A block beside a part that is everywhere at first, and a ball later. -/
def rift : Region ℕ :=
  .union none [.block ⟨0, 0, 0⟩,
    .dynamic fun n => if n = 0 then .everywhere else .sphere ⟨.splat .half, .one⟩]

/-- At first the block is the only shape in the rift. -/
lemma eq_block_of_below_rift {r' : Region ℕ} (h : Relation.ReflTransGen (IsPartIn 0) r' rift)
    (hshape : r'.IsShape) : r' = .block ⟨0, 0, 0⟩ := by
  rcases h.cases_tail with hr' | ⟨child, hbelow, hpart⟩
  · rw [← hr'] at hshape
    cases hshape
  rcases hpart with ⟨-, hchild⟩
  rcases List.mem_pair.1 hchild with rfl | rfl
  · rcases hbelow.cases_tail with hr' | ⟨_, -, hpart⟩
    · exact hr'.symm
    · cases hpart
  · rcases hbelow.cases_tail with rfl | ⟨_, hbelow, hpart⟩
    · cases hshape
    -- The dynamic part resolves to everywhere, which is no shape and has no parts.
    rcases hpart with - | - | -
    rcases hbelow.cases_tail with rfl | ⟨_, -, hpart⟩
    · cases hshape
    · cases hpart

/-- A box with a face at NaN beside a block. -/
def torn : Region ℕ :=
  .union none [.cuboid ⟨⟨⟨.nan, .zero false, .zero false⟩, .splat .one⟩⟩, .block ⟨0, 0, 0⟩]

/-- At first the rift can be neither listed nor counted; later nothing about it fails.  The torn
region cannot be listed, but it can be counted. -/
theorem rift_blocks_eq_error_iff :
    (rift.isBlockBounded 0 = false ∧
      rift.blocks ∅ 0 = .error (.notBlockBounded .unbounded) ∧
      (∀ r', Relation.ReflTransGen (IsPartIn 0) r' rift → r'.IsShape → (r'.bounds 0).NaNFree) ∧
      rift.blockVolume 0 = .error (.notBlockBounded .unbounded)) ∧
    (rift.isBlockBounded 1 = true ∧
      ∀ r', Relation.ReflTransGen (IsPartIn 1) r' rift → r'.NeverFails 1) ∧
    (torn.blocks ∅ 0 = .error (.notBlockBounded (torn.bounds 0)) ∧ torn.blockVolume 0 = .ok 1) := by
  have hunbounded : rift.isBlockBounded 0 = false := by decide +kernel
  have hbounded : rift.isBlockBounded 1 = true := by decide +kernel
  have herror : rift.blocks ∅ 0 = .error (.notBlockBounded .unbounded) :=
    ((blocks_eq_error_iff ∅ 0 rift).1 _).2 ⟨hunbounded, by decide +kernel⟩
  have hnan : ∀ r', Relation.ReflTransGen (IsPartIn 0) r' rift → r'.IsShape →
      (r'.bounds 0).NaNFree := by
    intro r' hbelow hshape
    rw [eq_block_of_below_rift hbelow hshape]
    exact Axis.forall_iff.2 (by decide +kernel)
  refine ⟨⟨hunbounded, herror, hnan, ?_⟩, ⟨hbounded, ?_⟩, ?_, ?_⟩
  · exact ((blocks_eq_error_iff ∅ 0 rift).2.2 hnan _).1 herror
  · exact (blocks_eq_error_iff ∅ 1 rift).2.1 hbounded
  · exact ((blocks_eq_error_iff ∅ 0 torn).1 _).2 ⟨by decide +kernel, rfl⟩
  · decide +kernel

end Rifts

end Region
end RegionRules
