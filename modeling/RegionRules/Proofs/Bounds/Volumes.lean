import RegionRules.Proofs.Bounds.Cells

/-!
# Counting the blocks of a box

The number of blocks of a box is the size of the set of blocks that its range has
(`Bounds.blockCount`), a natural number without limit.  It is the product of the spans of the range
(`BlockRange.ncard_contains`), and the volume is this number, held at the volume limit
(`Bounds.blockVolume_eq`), although the range counts its spans in 64 bits and holds every product at
the limit (`BlockRange.volume_eq`).
-/

set_option autoImplicit false

namespace RegionRules

/-- A set that is listed without repeats has as many elements as the list. -/
lemma ncard_eq_length {α : Type} {S : Set α} {l : List α} (hnodup : l.Nodup)
    (hmem : ∀ a, a ∈ l ↔ a ∈ S) : S.ncard = l.length := by
  classical
  have hset : S = ↑l.toFinset := by
    ext a
    rw [List.coe_toFinset, Set.mem_ofPred_eq, hmem a]
  rw [hset, Set.ncard_coe_finset, List.toFinset_card_of_nodup hnodup]

/-- The coordinates of a block as integers. -/
def BlockPos.toInts (p : BlockPos) : ℤ × ℤ × ℤ := (p.x.toInt, p.y.toInt, p.z.toInt)

lemma BlockPos.toInts_injective : Function.Injective toInts := by
  intro p q h
  simp only [toInts, Prod.mk.injEq, Int32.toInt_inj] at h
  obtain ⟨hx, hy, hz⟩ := h
  exact BlockPos.ext_coord (Axis.forall_iff.2 ⟨hx, hy, hz⟩)

namespace BlockRange

lemma toInts_image_contains (r : BlockRange) :
    BlockPos.toInts '' {p | r.Contains p} =
      ↑(Finset.Icc r.lo.x.toInt r.hi.x.toInt ×ˢ Finset.Icc r.lo.y.toInt r.hi.y.toInt ×ˢ
        Finset.Icc r.lo.z.toInt r.hi.z.toInt) := by
  ext ⟨x, y, z⟩
  simp only [Set.mem_image, Set.mem_ofPred_eq, Finset.coe_product, Finset.coe_Icc, Set.mem_prod,
    Set.mem_Icc]
  constructor
  · rintro ⟨p, hp, heq⟩
    cases heq
    simp only [Contains, Axis.forall_iff, BlockPos.coord, Int32.le_iff_toInt_le] at hp
    exact hp
  · intro h
    have hcoord {lo hi : Int32} {c : ℤ} (h : lo.toInt ≤ c ∧ c ≤ hi.toInt) :
        (Int32.ofInt c).toInt = c := by
      have hlow := lo.le_toInt
      have hhigh := hi.toInt_lt
      exact Int32.toInt_ofInt_of_le (by omega) (by omega)
    have heq : BlockPos.toInts ⟨.ofInt x, .ofInt y, .ofInt z⟩ = (x, y, z) := by
      rw [BlockPos.toInts, hcoord h.1, hcoord h.2.1, hcoord h.2.2]
    refine ⟨_, ?_, heq⟩
    simp only [Contains, Axis.forall_iff, BlockPos.coord, Int32.le_iff_toInt_le, hcoord h.1,
      hcoord h.2.1, hcoord h.2.2]
    exact h

/-- **A range has as many blocks as the product of its spans says.** -/
theorem ncard_contains (r : BlockRange) : {p | r.Contains p}.ncard = r.size := by
  rw [← Set.ncard_image_of_injective _ BlockPos.toInts_injective, toInts_image_contains,
    Set.ncard_coe_finset, Finset.card_product, Finset.card_product, Int.card_Icc, Int.card_Icc,
    Int.card_Icc, size, span, span, span, Nat.mul_assoc]
  congr 3 <;> ring_nf

/-! ## Counting in 64 bits -/

lemma toNat_toUInt64 {n : Int64} {k : ℕ} (h : n.toInt = k) : n.toUInt64.toNat = k := by
  have hnonneg : 0 ≤ n := Int64.le_iff_toInt_le.2 (by rw [h]; exact Int.natCast_nonneg k)
  rw [Int64.toNat_toUInt64_of_le hnonneg, Int64.toNatClampNeg, h, Int.toNat_natCast]

lemma toNat_extent {lo hi : Int32} (h : lo ≤ hi) : (extent lo hi).toNat = span lo hi := by
  have hlow := lo.le_toInt
  have hhigh := hi.toInt_lt
  rw [Int32.le_iff_toInt_le] at h
  refine toNat_toUInt64 ?_
  rw [Int64.toInt_add, Int64.toInt_sub, Int32.toInt_toInt64, Int32.toInt_toInt64, Int64.toInt_one,
    Int.bmod_eq_of_le (n := hi.toInt - lo.toInt) (by omega) (by omega),
    Int.bmod_eq_of_le (by omega) (by omega), span]
  omega

lemma cappedVolume_mul (m n : ℕ) : cappedVolume (cappedVolume m * n) = cappedVolume (m * n) := by
  unfold cappedVolume
  rcases Nat.eq_zero_or_pos n with rfl | hn
  · rfl
  rcases le_total m volumeLimit with h | h
  · rw [Nat.min_eq_right h]
  · -- Held at the limit, the product stays there, for its other factor is not zero.
    have hlimit : volumeLimit ≤ volumeLimit * n := Nat.le_mul_of_pos_right _ hn
    rw [Nat.min_eq_left h, Nat.min_eq_left hlimit,
      Nat.min_eq_left (h.trans (Nat.le_mul_of_pos_right _ hn))]

/-- **The volume of a range is its number of blocks, held at the limit once.** -/
lemma volume_eq (r : BlockRange) : r.volume = cappedVolume r.size := by
  rw [volume, toNat_extent r.le_x, toNat_extent r.le_y, toNat_extent r.le_z, cappedVolume_mul, size]

end BlockRange

namespace Bounds

variable {b : Bounds}

/-- Number of blocks in the range of a box, however large. -/
noncomputable def blockCount (b : Bounds) : ℕ := {p | b.Covers p}.ncard

lemma blockCount_of_some {r : BlockRange} (h : b.blockRange = .ok (some r)) :
    b.blockCount = r.size := by
  simp only [blockCount, covers_iff_contains h, BlockRange.ncard_contains]

lemma blockCount_of_none (h : b.blockRange = .ok none) : b.blockCount = 0 := by
  simp only [blockCount, not_covers_of_none h, Set.ofPred_false, Set.ncard_empty]

/-- **The volume of a box is its number of blocks, held at the limit.** -/
theorem blockVolume_eq (h : b.isBlockBounded = true) :
    b.blockVolume = .ok (cappedVolume b.blockCount) := by
  obtain ⟨_ | r, hrange⟩ := exists_blockRange h
  · rw [blockVolume, hrange, blockCount_of_none hrange]
    rfl
  · rw [blockVolume, hrange, blockCount_of_some hrange, ← r.volume_eq]
    rfl

end Bounds
end RegionRules
