import RegionRules.Proofs.Region.Shapes

/-!
# Which blocks a region lists

A region should list every block whose centre its bounds hold and which it contains, each once.
This module settles when it does.

Unions do their part: if every child lists the blocks it contains, and has them in its bounds, then
so does the union, however it goes about it (`blocks_union_listedBy`).  Unions of block cuboids
are always listed right, nested in any way.

Shapes may not.  A shape that does not fit its bounds can list a block that it does not contain,
or contain one beyond its bounds, and then there is a region that lists too much or too little: the
shape itself, or a union that chains it with two boxes.  So for a class of shapes the contract
holds throughout the regions built from it just when all shapes of the class fit
(`enumerates_builtFrom_iff`).
-/

set_option autoImplicit false

namespace RegionRules
namespace Region

variable {σ : Type} {memo : Memo} {s : σ} {r : Region σ} {b : BlockPos}

/-! ## Unions -/

lemma exists_blocks_union {id : Option UnionId} {children : List (Region σ)}
    (hmemo : memo.SoundFor s id children)
    (h : ∀ r ∈ children, ∃ c, r.blocks memo s = .ok c ∧ r.ListedBy s c) :
    ∃ c, blocks memo s (.union id children) = .ok c ∧ ListedBy s (.union id children) c := by
  have hcursor : ∀ r ∈ children, r.isBlockBounded s = true ∧
      ∃ c, r.cursor memo s false = .ok c ∧ r.ListedBy s c := by
    intro r hr
    obtain ⟨c, hc, hlisted⟩ := h r hr
    have hbounded := isBlockBounded_of_blocks hc
    rw [blocks_eq_cursor memo hbounded] at hc
    exact ⟨hbounded, c, hc, hlisted⟩
  rw [blocks_eq_cursor memo (isBlockBounded_union_of_listed hcursor id)]
  exact exists_cursor_union hcursor hmemo

/-- A part that follows the state lists its blocks if what it resolves to does. -/
lemma exists_cursor_dynamic {resolve : σ → Region σ}
    (hbounded : (resolve s).isBlockBounded s = true)
    (h : ∃ c, (resolve s).cursor memo s true = .ok c ∧ (resolve s).ListedBy s c) (frozen : Bool) :
    ∃ c, cursor memo s frozen (.dynamic resolve) = .ok c ∧ ListedBy s (.dynamic resolve) c := by
  obtain ⟨c, hc, hlists, hcenter⟩ := h
  refine ⟨.pinned s c, ?_, hlists.pinned, hcenter⟩
  rw [cursor, checkBlockBounded, if_pos hbounded, hc]
  rfl

/-- Block cuboids, and unions of such regions that have no strategy in the memo. -/
inductive BlockUnion (memo : Memo) : Region σ → Prop
  | cuboid (a b : BlockPos) : BlockUnion memo (.cuboidBlocks a b)
  | union (id : Option UnionId) (children : List (Region σ)) (hfresh : memo.remembered? id = none)
      (h : ∀ r ∈ children, BlockUnion memo r) : BlockUnion memo (.union id children)

lemma BlockUnion.exists_blocks (h : r.BlockUnion memo) (s : σ) :
    ∃ c, r.blocks memo s = .ok c ∧ r.ListedBy s c := by
  induction h with
  | cuboid a b =>
    have hbounded := isBlockBounded_cuboidBlocks s a b
    rw [blocks_eq_cursor memo hbounded]
    exact (fits_cuboidBlocks s a b).exists_cursor memo false (.cuboid _) hbounded
  | union id children hfresh _ ih =>
    exact exists_blocks_union (Memo.soundFor_of_fresh hfresh) ih

/-- **A union lists its blocks if its children do.**  Let a union have no strategy yet.  If every
child lists exactly the blocks that it contains, each once, and has their centres in its bounds,
then the union does the same, in whatever way it lists them.  Block cuboids and all unions of them
do so.  Asked for one block after another, they answer with this list and with no block after the
last. -/
theorem blocks_union_listedBy (memo : Memo) (s : σ) :
    (∀ id (children : List (Region σ)), memo.remembered? id = none →
      (∀ r ∈ children, ∃ c, r.blocks memo s = .ok c ∧ r.ListedBy s c) →
      ∃ c, blocks memo s (.union id children) = .ok c ∧ ListedBy s (.union id children) c ∧
        ∀ n, c.answers (List.replicate n s) = ((c.toList s).map some).takeD n none) ∧
    ∀ r : Region σ, r.BlockUnion memo → ∃ c, r.blocks memo s = .ok c ∧ r.ListedBy s c ∧
      ∀ n, c.answers (List.replicate n s) = ((c.toList s).map some).takeD n none := by
  constructor
  · intro id children hfresh h
    obtain ⟨c, hc, hlisted⟩ := exists_blocks_union (Memo.soundFor_of_fresh hfresh) h
    exact ⟨c, hc, hlisted, c.answers_replicate s⟩
  · intro r h
    obtain ⟨c, hc, hlisted⟩ := h.exists_blocks s
    exact ⟨c, hc, hlisted, c.answers_replicate s⟩

/-- A cuboid, a union that overlaps it, and a block that follows the state and overlaps that
union. -/
theorem overlapping_blockUnion_listed :
    let cuboid : Region Bool := .cuboidBlocks ⟨0, 0, 0⟩ ⟨1, 0, 0⟩
    let nested : Region Bool := .union none [.cuboidBlocks ⟨1, 0, 0⟩ ⟨1, 1, 0⟩, .block ⟨4, 0, 0⟩]
    let moving : Region Bool := .dynamic fun far => .block (if far then ⟨9, 0, 0⟩ else ⟨1, 1, 0⟩)
    let whole : Region Bool := .union (some 3) [cuboid, nested, moving]
    (cuboid.BlockUnion ∅ ∧ nested.BlockUnion ∅) ∧ (∅ : Memo).remembered? (some 3) = none ∧
      (∀ r ∈ [cuboid, nested, moving], ∃ c, r.blocks ∅ false = .ok c ∧ r.ListedBy false c) ∧
      ∃ c, whole.blocks ∅ false = .ok c ∧ whole.ListedBy false c ∧
        c.answers (List.replicate 6 false) =
          [some ⟨0, 0, 0⟩, some ⟨1, 0, 0⟩, some ⟨4, 0, 0⟩, some ⟨1, 1, 0⟩, none, none] := by
  intro cuboid nested moving whole
  have hcuboid : cuboid.BlockUnion ∅ := .cuboid _ _
  have hnested : nested.BlockUnion ∅ :=
    .union none _ rfl (forall_mem_pair.2 ⟨.cuboid _ _, .cuboid _ _⟩)
  have hmoving : ∃ c, moving.blocks ∅ false = .ok c ∧ moving.ListedBy false c := by
    have hbounded : moving.isBlockBounded false = true := isBlockBounded_cuboidBlocks false _ _
    rw [blocks_eq_cursor ∅ hbounded]
    exact exists_cursor_dynamic hbounded
      ((fits_cuboidBlocks false _ _).exists_cursor ∅ true (.cuboid _) hbounded) false
  have hfresh : (∅ : Memo).remembered? (some 3) = none := Std.HashMap.getElem?_empty
  obtain ⟨hunion, hblocks⟩ := blocks_union_listedBy (∅ : Memo) false
  have hlisted {r : Region Bool} (h : r.BlockUnion ∅) :
      ∃ c, r.blocks ∅ false = .ok c ∧ r.ListedBy false c :=
    (hblocks r h).imp fun _ hc => ⟨hc.1, hc.2.1⟩
  have hchildren : ∀ r ∈ [cuboid, nested, moving],
      ∃ c, r.blocks ∅ false = .ok c ∧ r.ListedBy false c :=
    List.forall_mem_cons.2 ⟨hlisted hcuboid, forall_mem_pair.2 ⟨hlisted hnested, hmoving⟩⟩
  obtain ⟨c, hc, hwhole, hanswers⟩ := hunion (some 3) _ hfresh hchildren
  have hlist : c.toList false = [⟨0, 0, 0⟩, ⟨1, 0, 0⟩, ⟨4, 0, 0⟩, ⟨1, 1, 0⟩] := by
    rw [← blockList_eq hc]
    decide +kernel
  refine ⟨⟨hcuboid, hnested⟩, hfresh, hchildren, c, hc, hwhole, ?_⟩
  rw [hanswers, hlist]
  rfl

/-! ## The contract -/

/-- The region lists the blocks that it contains and whose centres its bounds hold. -/
def Enumerates (memo : Memo) (s : σ) (r : Region σ) : Prop :=
  ∃ c, r.blocks memo s = .ok c ∧
    c.Lists s fun b => (r.bounds s).contains b.center = true ∧ r.containsBlock s b = true

/-- In the state, the region is made of shapes of a class, and none of its unions remembers a chain
of lists that is wrong by now. -/
inductive BuiltFrom (shapes : Region σ → Prop) (memo : Memo) (s : σ) : Region σ → Prop
  | empty : BuiltFrom shapes memo s .empty
  | everywhere : BuiltFrom shapes memo s .everywhere
  | shape (r : Region σ) (h : shapes r) : BuiltFrom shapes memo s r
  | union (id : Option UnionId) (children : List (Region σ)) (hmemo : memo.SoundFor s id children)
      (h : ∀ r ∈ children, BuiltFrom shapes memo s r) : BuiltFrom shapes memo s (.union id children)
  | static (inner : Region σ) (h : BuiltFrom shapes memo s inner) :
      BuiltFrom shapes memo s (.static inner)
  | dynamic (resolve : σ → Region σ) (h : BuiltFrom shapes memo s (resolve s)) :
      BuiltFrom shapes memo s (.dynamic resolve)

variable {shapes : Region σ → Prop}

/-- What is made of fitting shapes lists the blocks that it contains. -/
lemma BuiltFrom.exists_cursor (hshapes : ∀ r, shapes r → r.IsShape)
    (hfits : ∀ r, shapes r → r.isBlockBounded s = true → r.Fits s)
    (h : r.BuiltFrom shapes memo s) (hbounded : r.isBlockBounded s = true) (frozen : Bool) :
    ∃ c, r.cursor memo s frozen = .ok c ∧ r.ListedBy s c := by
  induction h generalizing frozen with
  | empty =>
    refine ⟨.nil, rfl, (Cursor.Lists.nil s).congr fun b => ?_, fun b hb => ?_⟩
    · simp [containsBlock, contains]
    · cases hb
  | everywhere => cases hbounded
  | shape r hr => exact (hfits r hr hbounded).exists_cursor memo frozen (hshapes r hr) hbounded
  | union id children hmemo _ ih =>
    have hchildren := isBlockBounded_union.1 hbounded
    exact exists_cursor_union (fun r hr => ⟨hchildren r hr, ih r hr (hchildren r hr) frozen⟩) hmemo
  | static inner _ ih =>
    obtain ⟨c, hc, hlists, hcenter⟩ := ih hbounded false
    have hinner : inner.isBlockBounded s = true := hbounded
    refine ⟨c, ?_, hlists, hcenter⟩
    rw [cursor, checkBlockBounded, if_pos hinner]
    exact hc
  | dynamic resolve _ ih => exact exists_cursor_dynamic hbounded (ih hbounded true) frozen

/-! ## Shapes that do not fit -/

lemma Enumerates.center_mem_of_selects (h : r.Enumerates memo s) (hr : r.IsShape)
    (hb : r.Selects s b) : (r.bounds s).contains b.center = true := by
  obtain ⟨c, hc, hlists⟩ := h
  have hbounded := isBlockBounded_of_blocks hc
  obtain ⟨c', hc', hselects⟩ := exists_cursor_shape memo false hr hbounded
  rw [blocks_eq_cursor memo hbounded, hc', Except.ok.injEq] at hc
  subst hc
  exact ((hlists.mem_iff b).1 ((hselects.mem_iff b).2 hb)).1

/-- A box that does not hold a centre misses, along some axis, all centres level with it. -/
lemma exists_axis_disjoint {box : Bounds} (hbounded : box.isBlockBounded = true)
    (hempty : box.isEmpty = true → box = .empty) (hb : ¬ box.contains b.center = true) :
    ∃ i, ∀ q : BlockPos, q.coord i = b.coord i → box.disjoint (.atCenter q) = true := by
  by_cases he : box.isEmpty = true
  · refine ⟨.x, fun q _ => Bounds.disjoint_iff.2 ⟨.x, .inl ?_⟩⟩
    obtain ⟨hnan, hplace⟩ := Binary64.isFinite_iff.1 (q.isHalves_center .x).isFinite
    rw [hempty he, Binary64.lt_iff]
    refine ⟨by decide, hnan, ?_⟩
    change -(Binary64.infRank : ℤ) < q.center.x.place
    change q.center.x.place.natAbs < _ at hplace
    omega
  · have hworld := (Bounds.isBlockBounded_iff (Bool.not_eq_true _ ▸ he)).1 hbounded
    rw [Bounds.contains_iff, not_forall] at hb
    obtain ⟨i, hi⟩ := hb
    refine ⟨i, fun q hq => Bounds.disjoint_iff.2 ⟨i, ?_⟩⟩
    have hnan := (q.isHalves_center i).isFinite.ne_nan
    rw [← Bounds.coord_center_congr hq] at hi
    by_cases hlower : box.lower.coord i ≤ q.center.coord i
    · exact .inl (Binary64.lt_of_not_le hnan (hworld.upper i).isFinite.ne_nan
        fun hupper => hi ⟨hlower, hupper⟩)
    · exact .inr (Binary64.lt_of_not_le (hworld.lower i).isFinite.ne_nan hnan hlower)

/-- Level with a block on an axis there are two others that together are level with it on every
axis. -/
lemma exists_level_pair (b : BlockPos) (i : Axis) :
    ∃ q q' : BlockPos, q ≠ b ∧ q' ≠ b ∧ (∃ j, q.coord j ≠ q'.coord j) ∧
      (q.coord i = b.coord i ∧ q'.coord i = b.coord i) ∧
      ∀ j, q.coord j = b.coord j ∨ q'.coord j = b.coord j := by
  obtain ⟨x, y, z⟩ := b
  have hne (c : Int32) : c + 1 ≠ c := by
    rw [Ne, Int32.add_eq_left]
    decide
  cases i with
  | x =>
    refine ⟨⟨x, y + 1, z⟩, ⟨x, y, z + 1⟩, by simp [hne], by simp [hne], ⟨.y, hne y⟩,
      ⟨rfl, rfl⟩, ?_⟩
    rintro (_ | _ | _) <;> simp [BlockPos.coord]
  | y =>
    refine ⟨⟨x + 1, y, z⟩, ⟨x, y, z + 1⟩, by simp [hne], by simp [hne], ⟨.x, hne x⟩,
      ⟨rfl, rfl⟩, ?_⟩
    rintro (_ | _ | _) <;> simp [BlockPos.coord]
  | z =>
    refine ⟨⟨x + 1, y, z⟩, ⟨x, y + 1, z⟩, by simp [hne], by simp [hne], ⟨.x, hne x⟩,
      ⟨rfl, rfl⟩, ?_⟩
    rintro (_ | _ | _) <;> simp [BlockPos.coord]

lemma cursor_union_eq_cursorAll {children : List (Region σ)} {frozen : Bool}
    (hstatic : isStaticAll children = true)
    (hfew : children.length < Strategy.disjointCheckLimit)
    (hdisjoint : Strategy.pairwiseDisjoint (children.map (bounds s)) = true) :
    cursor ∅ s frozen (.union none children) = cursorAll ∅ s frozen children := by
  have hselect : Strategy.select s children = .childScan := by
    rw [Strategy.select, if_pos hstatic, Strategy.ofBounds, List.length_map]
    exact if_pos (by rw [hdisjoint, Bool.and_true, decide_eq_true hfew])
  have hparts : parts s children = children := if_pos hstatic
  rw [cursor, hstatic, Bool.or_true, if_pos rfl, hparts]
  unfold Memo.strategy partsId
  rw [hstatic, hselect]
  rfl

/-- What a chain of shapes lists is what the shapes list. -/
lemma Enumerates.exists_selects {children : List (Region σ)}
    (h : Enumerates ∅ s (.union none children))
    (hshapes : ∀ r ∈ children, r.IsShape) (hfew : children.length < Strategy.disjointCheckLimit)
    (hdisjoint : Strategy.pairwiseDisjoint (children.map (bounds s)) = true)
    (hcenter : (bounds s (.union none children)).contains b.center = true)
    (hb : containsBlock s b (.union none children) = true) : ∃ r ∈ children, r.Selects s b := by
  obtain ⟨c, hc, hlists⟩ := h
  have hbounded := isBlockBounded_of_blocks hc
  have hselects : ∀ r ∈ children, r.isBlockBounded s = true ∧
      ∃ c, r.cursor ∅ s false = .ok c ∧ c.Lists s (r.Selects s) := by
    intro r hr
    have hr_bounded := isBlockBounded_union.1 hbounded r hr
    exact ⟨hr_bounded, exists_cursor_shape ∅ false (hshapes r hr) hr_bounded⟩
  have hstatic : isStaticAll children = true :=
    isStaticAll_eq_true.2 fun r hr => (hshapes r hr).isStatic
  obtain ⟨chain, hchain, hmem, -⟩ := exists_cursorAll hselects
  rw [blocks_eq_cursor ∅ hbounded, cursor_union_eq_cursorAll hstatic hfew hdisjoint, hchain,
    Except.ok.injEq] at hc
  subst hc
  exact (hmem b).1 ((hlists.mem_iff b).2 ⟨hcenter, hb⟩)

/-- A shape and the boxes at the centres of two blocks. -/
def flanked (r : Region σ) (q q' : BlockPos) : List (Region σ) :=
  [r, .cuboid ⟨.atCenter q⟩, .cuboid ⟨.atCenter q'⟩]

lemma forall_mem_flanked {P : Region σ → Prop} {q q' : BlockPos} :
    (∀ r' ∈ flanked r q q', P r') ↔
      P r ∧ P (.cuboid ⟨.atCenter q⟩) ∧ P (.cuboid ⟨.atCenter q'⟩) := by
  simp [flanked]

lemma isBlockBounded_flanked (h : r.isBlockBounded s = true) (q q' : BlockPos) :
    isBlockBounded s (.union none (flanked r q q')) = true :=
  isBlockBounded_union.2 (forall_mem_flanked.2
    ⟨h, (Bounds.onGrid_atCenter q).isBlockBounded, (Bounds.onGrid_atCenter q').isBlockBounded⟩)

lemma contains_bounds_flanked {q q' : BlockPos} (h : r.isBlockBounded s = true)
    (hlevel : ∀ j, q.coord j = b.coord j ∨ q'.coord j = b.coord j) :
    (bounds s (.union none (flanked r q q'))).contains b.center = true := by
  have hall : ∀ r' ∈ flanked r q q', (r'.bounds s).IsClean := fun r' hr' =>
    isClean_bounds (isBlockBounded_union.1 (isBlockBounded_flanked h q q') r' hr')
  have hcontains (p : BlockPos) (hp : Region.cuboid ⟨.atCenter p⟩ ∈ flanked r q q') :
      (bounds s (.union none (flanked r q q'))).contains p.center = true :=
    contains_bounds_union hall hp
      ((Bounds.onGrid_atCenter p).contains_center_iff.2 fun _ => ⟨le_rfl, le_rfl⟩)
  have hleft := Bounds.contains_iff.1 (hcontains q (by simp [flanked]))
  have hright := Bounds.contains_iff.1 (hcontains q' (by simp [flanked]))
  refine Bounds.contains_iff.2 fun k => ?_
  rcases hlevel k with hk | hk <;> rw [← Bounds.coord_center_congr hk]
  exacts [hleft k, hright k]

/-- A block that a shape contains but does not list is missed by a union that has the block in its
bounds. -/
lemma exists_flanked_not_enumerates (hr : r.IsShape) (hbounded : r.isBlockBounded s = true)
    (hb : r.containsBlock s b = true) (hselects : ¬ r.Selects s b)
    (hdisjoint : ∃ i, ∀ q : BlockPos, q.coord i = b.coord i →
      (r.bounds s).disjoint (.atCenter q) = true) :
    ∃ q q', ¬ Enumerates ∅ s (.union none (flanked r q q')) := by
  obtain ⟨i, hmiss⟩ := hdisjoint
  obtain ⟨q, q', hq, hq', ⟨j, hj⟩, hsame, hlevel⟩ := exists_level_pair b i
  refine ⟨q, q', fun h => ?_⟩
  have hpairwise :
      Strategy.pairwiseDisjoint ((flanked r q q').map (bounds s)) = true := by
    rw [Strategy.pairwiseDisjoint_iff]
    simp only [flanked, List.map_cons, List.map_nil, List.pairwise_cons, List.forall_mem_cons,
      List.not_mem_nil, false_imp_iff, implies_true, and_true, List.Pairwise.nil]
    exact ⟨⟨hmiss q hsame.1, hmiss q' hsame.2⟩, Bounds.disjoint_atCenter hj⟩
  obtain ⟨r', hr', hb'⟩ := h.exists_selects
    (forall_mem_flanked.2 ⟨hr, .cuboid _, .cuboid _⟩) (by decide : 3 < Strategy.disjointCheckLimit)
    hpairwise (contains_bounds_flanked hbounded hlevel)
    (containsBlock_union.2 ⟨r, List.mem_cons_self, hb⟩)
  have hnone : ∀ r' ∈ flanked r q q', ¬ r'.Selects s b := forall_mem_flanked.2
    ⟨hselects, fun h => hq (Bounds.covers_atCenter_iff.1 h).symm,
      fun h => hq' (Bounds.covers_atCenter_iff.1 h).symm⟩
  exact hnone r' hr' hb'

/-- **The contract holds just for shapes that fit.**  Take a class of shapes that has the boxes at
the centres of blocks.  All regions built from it that can be listed enumerate their blocks if, and
only if, every shape of the class that can be listed fits its bounds. -/
theorem enumerates_builtFrom_iff (s : σ) (shapes : Region σ → Prop)
    (hshapes : ∀ r, shapes r → r.IsShape) (hpoints : ∀ b, shapes (.cuboid ⟨.atCenter b⟩)) :
    (∀ r, shapes r → r.isBlockBounded s = true → r.Fits s) ↔
      ∀ (memo : Memo) (r : Region σ), r.BuiltFrom shapes memo s → r.isBlockBounded s = true →
        r.Enumerates memo s := by
  constructor
  · intro hfits memo r hr hbounded
    obtain ⟨c, hc, hlists, hcenter⟩ := hr.exists_cursor hshapes hfits hbounded false
    refine ⟨c, (blocks_eq_cursor memo hbounded).trans hc, hlists.congr fun b => ?_⟩
    exact ⟨fun hb => ⟨hcenter b hb, hb⟩, And.right⟩
  · intro henumerates r hr hbounded b hb
    have hself := henumerates ∅ r (.shape r hr) hbounded
    by_contra hcenter
    have hselects : ¬ r.Selects s b := fun hb =>
      hcenter (hself.center_mem_of_selects (hshapes r hr) hb)
    have hcontains := hb.resolve_left hselects
    -- A box contains a block only if its bounds do.
    have hcuboid : ∀ c, r ≠ .cuboid c := by
      rintro c rfl
      exact hcenter hcontains
    have hempty := bounds_eq_empty (s := s) (hshapes r hr) hcuboid
    have hbox := hbounded
    rw [(hshapes r hr).isBlockBounded_eq] at hbox
    obtain ⟨q, q', hfails⟩ := exists_flanked_not_enumerates (hshapes r hr) hbounded hcontains
      hselects (exists_axis_disjoint hbox hempty hcenter)
    refine hfails (henumerates ∅ _ (.union none _ (Memo.soundFor_of_fresh rfl) ?_)
      (isBlockBounded_flanked hbounded q q'))
    exact forall_mem_flanked.2 ⟨.shape _ hr, .shape _ (hpoints q), .shape _ (hpoints q')⟩

/-- A part that follows the state beside a box: the state decides whether they overlap. -/
theorem switched_union_enumerates :
    let shapes : Region Bool → Prop := fun r =>
      (∃ a b, r = .cuboidBlocks a b) ∨ ∃ b, r = .cuboid ⟨.atCenter b⟩
    let switched : Region Bool := .union none
      [.dynamic fun far => .block (if far then ⟨7, 0, 0⟩ else ⟨1, 0, 0⟩),
        .cuboidBlocks ⟨0, 0, 0⟩ ⟨2, 0, 0⟩]
    (∀ r, shapes r → r.IsShape) ∧ (∀ b, shapes (.cuboid ⟨.atCenter b⟩)) ∧
      switched.Enumerates ∅ false := by
  intro shapes switched
  have hshapes : ∀ r, shapes r → r.IsShape := by
    rintro r (⟨a, b, rfl⟩ | ⟨b, rfl⟩)
    exacts [.cuboid _, .cuboid _]
  have hpoints : ∀ b, shapes (.cuboid ⟨.atCenter b⟩) := fun b => .inr ⟨b, rfl⟩
  have hfits : ∀ r, shapes r → r.isBlockBounded false = true → r.Fits false := by
    rintro r (⟨a, b, rfl⟩ | ⟨b, rfl⟩) -
    · exact fits_cuboidBlocks false a b
    · exact fits_cuboid_iff.2 (Bounds.onGrid_atCenter b).tight
  refine ⟨hshapes, hpoints,
    (enumerates_builtFrom_iff false shapes hshapes hpoints).1 hfits ∅ switched ?_ ?_⟩
  · refine .union none _ (Memo.soundFor_of_fresh rfl) (forall_mem_pair.2 ⟨?_, ?_⟩)
    · exact .dynamic _ (.shape _ (.inl ⟨_, _, rfl⟩))
    · exact .shape _ (.inl ⟨_, _, rfl⟩)
  · decide +kernel

/-- The box from `-3` to just short of `-1/2` along `x`, one block wide. -/
def shavedBox : Region Unit :=
  .cuboid (.spanning ⟨.ofInt (-3), .ofInt 0, .ofInt 0⟩
    ⟨.num true 0x3fe0000000000001 (by decide), .ofInt 1, .ofInt 1⟩)

/-- The face just short of `-1/2` is rounded onto that centre, so the block is listed. -/
theorem shavedBox_not_enumerates :
    shavedBox.isBlockBounded () = true ∧ shavedBox.containsBlock () ⟨-1, 0, 0⟩ = false ∧
      ¬ shavedBox.Enumerates ∅ () := by
  have hbounded : shavedBox.isBlockBounded () = true := by decide +kernel
  have houtside : shavedBox.containsBlock () ⟨-1, 0, 0⟩ = false := by decide +kernel
  have hselects : shavedBox.Selects () ⟨-1, 0, 0⟩ := by
    refine ⟨⟨⟨-3, 0, 0⟩, ⟨-1, 0, 0⟩, by decide, by decide, by decide⟩, by decide +kernel, ?_⟩
    rintro (_ | _ | _) <;> decide
  refine ⟨hbounded, houtside, fun h => ?_⟩
  have hcenter := h.center_mem_of_selects (.cuboid _) hselects
  exact Bool.false_ne_true (houtside.symm.trans hcenter)

end Region
end RegionRules
