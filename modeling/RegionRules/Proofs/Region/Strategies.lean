import RegionRules.Proofs.Bounds.Volumes
import RegionRules.Proofs.Region.Unions

/-!
# Which strategy a union takes

A union of static children chains their lists if the children are few and their bounds miss each
other.  Otherwise it is scanned if it is dense, that is, if its bounds have fewer blocks than
`Strategy.densityFactor` times those of the children together, and filtered if it is not.  This is
the rule, stated on numbers of blocks without limit (`Strategy.FollowsRule`).

The choice is made on volumes, which are held at a limit.  A sum that is held at every step is the
true sum held once (`summedVolume_eq`), so the volumes that are compared are the true numbers held
at the limit, and below the limit nothing is lost.  At the limit the comparison fails, and a union
is filtered however dense it is.  `followsRule_strategy_iff` says that this is the only exception.
-/

set_option autoImplicit false

namespace RegionRules

/-! ## Volumes and numbers of blocks -/

namespace Strategy

variable {b whole : Bounds} {bs children : List Bounds}

/-- Number of blocks in the ranges of all boxes together; a block counts once for every box. -/
noncomputable def summedCount (bs : List Bounds) : ℕ := (bs.map Bounds.blockCount).sum

lemma volume_eq (h : b.isBlockBounded = true) : volume b = cappedVolume b.blockCount := by
  rw [volume, Bounds.blockVolume_eq h]

lemma cappedVolume_add_cappedVolume (m n : ℕ) :
    cappedVolume (cappedVolume m + cappedVolume n) = cappedVolume (m + n) := by
  unfold cappedVolume
  omega

/-- **Volumes that are held at the limit at every step add up to the sum held once.** -/
lemma summedVolume_eq (h : ∀ b ∈ bs, b.isBlockBounded = true) :
    summedVolume bs = cappedVolume (summedCount bs) := by
  have hfrom (acc : ℕ) : bs.foldl (fun sum b => cappedVolume (sum + volume b)) (cappedVolume acc) =
      cappedVolume (acc + summedCount bs) := by
    induction bs generalizing acc with
    | nil => rfl
    | cons b bs ih =>
      rw [List.forall_mem_cons] at h
      rw [List.foldl_cons, volume_eq h.1, cappedVolume_add_cappedVolume, ih h.2, summedCount,
        summedCount, List.map_cons, List.sum_cons, Nat.add_assoc]
  have hzero : cappedVolume 0 = 0 := Nat.min_zero _
  rw [summedVolume, ← hzero, hfrom, Nat.zero_add]

/-- Below the limit, and only there, the comparison of volumes is that of the true numbers. -/
lemma cappedVolume_lt_iff (m n : ℕ) :
    cappedVolume m < cappedVolume (cappedVolume n * densityFactor) ↔
      m < volumeLimit ∧ m < densityFactor * n := by
  have hlimit : 0 < volumeLimit := by decide
  unfold cappedVolume densityFactor
  omega

/-! ## The rule -/

/-- The boxes are few enough to be compared, and no two of them overlap. -/
def CanChain (children : List Bounds) : Prop :=
  children.length < disjointCheckLimit ∧ children.Pairwise fun b b' => b.disjoint b' = true

/-- The whole has fewer blocks than the density factor times those of the children together. -/
def IsDense (children : List Bounds) (whole : Bounds) : Prop :=
  whole.blockCount < densityFactor * summedCount children

/-- The strategy is the one for boxes of these numbers of blocks. -/
structure FollowsRule (children : List Bounds) (whole : Bounds) (strategy : Strategy) : Prop where
  childScan_iff : strategy = .childScan ↔ CanChain children
  fullScan_iff : strategy = .fullScan ↔ ¬ CanChain children ∧ IsDense children whole
  filteredChildScan_iff : (∃ capacity, strategy = .filteredChildScan capacity) ↔
    ¬ CanChain children ∧ ¬ IsDense children whole

section Bounded

variable (hchildren : ∀ b ∈ children, b.isBlockBounded = true)
  (hwhole : whole.isBlockBounded = true)

lemma ofBounds_of_canChain (h : CanChain children) : ofBounds children whole = .childScan := by
  rw [ofBounds, if_pos]
  rw [Bool.and_eq_true, decide_eq_true_iff, pairwiseDisjoint_iff]
  exact h

include hchildren hwhole

/-- Boxes that cannot be chained are compared by their numbers of blocks, up to the limit. -/
lemma ofBounds_of_not_canChain (h : ¬ CanChain children) :
    (whole.blockCount < volumeLimit ∧ IsDense children whole ∧
        ofBounds children whole = .fullScan) ∨
      (¬ (whole.blockCount < volumeLimit ∧ IsDense children whole) ∧
        ofBounds children whole = .filteredChildScan (cappedVolume (summedCount children))) := by
  have hchain : ¬ (children.length < disjointCheckLimit && pairwiseDisjoint children) = true := by
    rw [Bool.and_eq_true, decide_eq_true_iff, pairwiseDisjoint_iff]
    exact h
  have hdense := cappedVolume_lt_iff whole.blockCount (summedCount children)
  rw [ofBounds, if_neg hchain, summedVolume_eq hchildren, volume_eq hwhole]
  dsimp only
  split_ifs with hlt
  · exact .inl ⟨(hdense.1 hlt).1, (hdense.1 hlt).2, rfl⟩
  · exact .inr ⟨fun h => hlt (hdense.2 h), rfl⟩

/-- **The rule is followed unless a dense union that cannot be chained has reached the limit.** -/
lemma followsRule_ofBounds_iff : FollowsRule children whole (ofBounds children whole) ↔
    CanChain children ∨ whole.blockCount < volumeLimit ∨ ¬ IsDense children whole := by
  by_cases hchain : CanChain children
  · rw [ofBounds_of_canChain hchain]
    refine iff_of_true ⟨iff_of_true rfl hchain, ?_, ?_⟩ (.inl hchain) <;> simp [hchain]
  rcases ofBounds_of_not_canChain hchildren hwhole hchain with ⟨hlt, hdense, heq⟩ | ⟨hnot, heq⟩
  · rw [heq]
    refine iff_of_true ⟨?_, ?_, ?_⟩ (.inr (.inl hlt)) <;> simp [hchain, hdense]
  · rw [heq]
    constructor
    · intro hrule
      exact .inr (.inr (hrule.filteredChildScan_iff.1 ⟨_, rfl⟩).2)
    · intro h
      have hsparse : ¬ IsDense children whole := by
        rcases h with h | h | h
        · exact absurd h hchain
        · exact fun hdense => hnot ⟨h, hdense⟩
        · exact h
      refine ⟨?_, ?_, ?_⟩ <;> simp [hchain, hsparse]

end Bounded

end Strategy

/-! ## Unions -/

namespace Memo

variable {σ : Type} {memo : Memo} {s : σ} {id : Option UnionId} {children : List (Region σ)}

/-- What the memo has for the union, if anything, is what the union selects in the state. -/
def IsCurrent (memo : Memo) (s : σ) (id : Option UnionId) (children : List (Region σ)) : Prop :=
  ∀ strategy, memo.remembered? id = some strategy → strategy = .select s children

lemma isCurrent_of_fresh (h : memo.remembered? id = none) : memo.IsCurrent s id children := by
  intro strategy hmemo
  rw [h] at hmemo
  cases hmemo

lemma IsCurrent.strategy_eq (h : memo.IsCurrent s id children) :
    memo.strategy s id children = .select s children := by
  rw [Memo.strategy]
  cases hmemo : memo.remembered? id with
  | none => rfl
  | some strategy => exact h strategy hmemo

end Memo

namespace Region

variable {σ : Type} {memo : Memo} {s : σ} {id : Option UnionId} {children : List (Region σ)}

/-- **The strategy of a static union follows the rule if and only if its children can be chained,
its bounds have fewer blocks than the volume limit, or it is not dense.** -/
theorem followsRule_strategy_iff (hstatic : (Region.union id children).isStatic = true)
    (hbounded : (Region.union id children).isBlockBounded s = true)
    (hmemo : memo.IsCurrent s id children) :
    Strategy.FollowsRule (children.map (·.bounds s)) ((Region.union id children).bounds s)
        (memo.strategy s id children) ↔
      Strategy.CanChain (children.map (·.bounds s)) ∨
        ((Region.union id children).bounds s).blockCount < volumeLimit ∨
          ¬ Strategy.IsDense (children.map (·.bounds s))
            ((Region.union id children).bounds s) := by
  have hselect : Strategy.select s children = Strategy.ofBounds (children.map (·.bounds s))
      ((Region.union id children).bounds s) := if_pos hstatic
  rw [hmemo.strategy_eq, hselect]
  refine Strategy.followsRule_ofBounds_iff ?_ (isBlockBounded_bounds hbounded)
  rw [isBlockBounded_union] at hbounded
  exact List.forall_mem_map.2 fun r hr => isBlockBounded_bounds (hbounded r hr)

section Plates

/-- The blocks at height `0` between two corners. -/
def plate (lo hi : Int32) : Region Unit := .cuboidBlocks ⟨lo, 0, lo⟩ ⟨hi, 0, hi⟩

/-- A hundred blocks. -/
def smallPlate : Region Unit := plate 0 9

/-- All blocks of one height, one more than can be counted. -/
def fullPlate : Region Unit := plate Int32.minValue Int32.maxValue

/-- Two copies of a region, which overlap. -/
def twice (r : Region Unit) : Region Unit := .union none [r, r]

/-- Two small plates follow the rule, and they are scanned. -/
theorem twice_smallPlate_followsRule :
    ((twice smallPlate).isStatic = true ∧ (twice smallPlate).isBlockBounded () = true) ∧
      Strategy.FollowsRule [smallPlate.bounds (), smallPlate.bounds ()]
          ((twice smallPlate).bounds ()) (Memo.strategy ∅ () none [smallPlate, smallPlate]) ∧
        Memo.strategy ∅ () none [smallPlate, smallPlate] = .fullScan := by
  have hstatic : (twice smallPlate).isStatic = true := rfl
  have hbounded : (twice smallPlate).isBlockBounded () = true := by decide +kernel
  have hcount : ((twice smallPlate).bounds ()).blockCount = 100 :=
    Bounds.blockCount_of_some (r := ⟨⟨0, 0, 0⟩, ⟨9, 0, 9⟩, by decide, by decide, by decide⟩)
      (by decide +kernel)
  have hlimit : ((twice smallPlate).bounds ()).blockCount < volumeLimit := by
    rw [hcount]
    decide
  exact ⟨⟨hstatic, hbounded⟩, (followsRule_strategy_iff hstatic hbounded
    (Memo.isCurrent_of_fresh rfl)).2 (.inr (.inl hlimit)), by decide +kernel⟩

/-- Two full plates are as dense, and they are filtered. -/
theorem twice_fullPlate_not_followsRule :
    ((twice fullPlate).isStatic = true ∧ (twice fullPlate).isBlockBounded () = true) ∧
      ¬ Strategy.FollowsRule [fullPlate.bounds (), fullPlate.bounds ()]
          ((twice fullPlate).bounds ()) (Memo.strategy ∅ () none [fullPlate, fullPlate]) := by
  have hcount {b : Bounds} (h : b.blockRange = .ok (some ⟨⟨Int32.minValue, 0, Int32.minValue⟩,
      ⟨Int32.maxValue, 0, Int32.maxValue⟩, by decide, by decide, by decide⟩)) :
      b.blockCount = 2 ^ 64 := (Bounds.blockCount_of_some h).trans (by decide)
  have hwhole : ((twice fullPlate).bounds ()).blockCount = 2 ^ 64 := hcount (by decide +kernel)
  have hchild : (fullPlate.bounds ()).blockCount = 2 ^ 64 := hcount (by decide +kernel)
  have hdense : Strategy.IsDense [fullPlate.bounds (), fullPlate.bounds ()]
      ((twice fullPlate).bounds ()) := by
    rw [Strategy.IsDense, Strategy.summedCount, List.map_cons, List.map_cons, hwhole, hchild]
    decide
  have hfiltered : Memo.strategy ∅ () none [fullPlate, fullPlate] =
      .filteredChildScan volumeLimit := by
    decide +kernel
  refine ⟨⟨rfl, by decide +kernel⟩, fun hrule => ?_⟩
  exact (hrule.filteredChildScan_iff.1 ⟨_, hfiltered⟩).2 hdense

end Plates

end Region
end RegionRules
