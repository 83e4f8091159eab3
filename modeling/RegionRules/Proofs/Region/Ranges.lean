import RegionRules.Proofs.Bounds.Volumes
import RegionRules.Proofs.Region.Steady

/-!
# Walking a range

The list of a range has its blocks in order, each once; what one turn of the odometer does carries
over to every turn of the walk, and the number of blocks is the product of the spans
(`BlockRange.isWalk_toList`).  A cursor over the range gives this list and then nothing more, and
the volume of every box with the range is the length of the list, held at the limit
(`BlockRange.walk_spec`).
-/

set_option autoImplicit false

namespace RegionRules

namespace BlockRange

/-! ## Walks -/

/-- The blocks are those of the range, each once, as an odometer shows them. -/
structure IsWalk (r : BlockRange) (blocks : List BlockPos) : Prop where
  pairwise : blocks.Pairwise BlockPos.Before
  mem_iff : ∀ p, p ∈ blocks ↔ r.Contains p
  length_eq : (blocks.length : ℤ) = (r.hi.x.toInt - r.lo.x.toInt + 1) *
    (r.hi.y.toInt - r.lo.y.toInt + 1) * (r.hi.z.toInt - r.lo.z.toInt + 1)
  turns : ∀ p ∈ blocks, r.Turns p (r.next? p)

lemma span_eq {lo hi : Int32} (h : lo ≤ hi) :
    (span lo hi : ℤ) = hi.toInt - lo.toInt + 1 := by
  rw [Int32.le_iff_toInt_le] at h
  exact Int.toNat_of_nonneg (by omega)

variable {σ : Type}

lemma length_toList (s : σ) (r : BlockRange) :
    ((Cursor.range r r.lo : Cursor σ).toList s).length = r.size := by
  have hlists := Cursor.Lists.range s r
  rw [← ncard_contains]
  exact (ncard_eq_length hlists.nodup hlists.mem_iff).symm

lemma isWalk_toList (s : σ) (r : BlockRange) :
    r.IsWalk ((Cursor.range r r.lo : Cursor σ).toList s) where
  pairwise := (Cursor.toList_range_spec s r.contains_lo).1
  mem_iff := (Cursor.Lists.range s r).mem_iff
  length_eq := by
    rw [length_toList, size, Nat.cast_mul, Nat.cast_mul, span_eq r.le_x, span_eq r.le_y,
      span_eq r.le_z]
  turns p hp := turns_next? (((Cursor.Lists.range s r).mem_iff p).1 hp)

/-- **A cursor over a range walks it once.**  The blocks that it lists are those of the range and
no others, ascending by `z`, then `y`, then `x`; there are as many as the product of the spans, and
no coordinate overflows on the way from one to the next.  Asked any number of times, whatever the
states of the match, the cursor answers with these blocks, and with none after the last.  The blocks
of a box that has this range start there, and the volume of the box is their number, held at the
largest count of 64 bits. -/
theorem walk_spec (s : σ) (r : BlockRange) :
    r.IsWalk ((Cursor.range r r.lo : Cursor σ).toList s) ∧
      (∀ states : List σ, (Cursor.range r r.lo).answers states =
        (((Cursor.range r r.lo).toList s).map some).takeD states.length none) ∧
      ∀ b : Bounds, b.blockRange = .ok (some r) →
        Cursor.ofBounds b = .ok (.range r r.lo : Cursor σ) ∧
          b.blockVolume =
            .ok (min (2 ^ 64 - 1) ((Cursor.range r r.lo : Cursor σ).toList s).length) := by
  refine ⟨isWalk_toList s r, (Cursor.Steady.range r r.lo).answers_eq s, fun b hrange => ⟨?_, ?_⟩⟩
  · rw [Cursor.ofBounds, hrange]
    rfl
  · have hvolume : b.blockVolume = .ok r.volume := by
      rw [Bounds.blockVolume, hrange]
      rfl
    rw [hvolume, volume_eq, length_toList]
    rfl

section Limits

/-- Two blocks at the upper limit of `x` and the lower limit of `z`. -/
def brink : BlockRange := ⟨⟨2147483646, 0, .minValue⟩, ⟨.maxValue, 0, .minValue⟩, by decide,
  by decide, by decide⟩

/-- All blocks there are. -/
def world : BlockRange := ⟨⟨.minValue, .minValue, .minValue⟩, ⟨.maxValue, .maxValue, .maxValue⟩,
  by decide, by decide, by decide⟩

/-- At the limits of the coordinates the walk has two blocks and is over.  A walk through the world
has `2 ^ 96`, more than a volume can say. -/
theorem brink_walk :
    (brink.IsWalk ((Cursor.range brink brink.lo : Cursor Unit).toList ()) ∧
      (Cursor.range brink brink.lo).answers [(), (), (), ()] =
        [some ⟨2147483646, 0, .minValue⟩, some ⟨.maxValue, 0, .minValue⟩, none, none] ∧
      (Bounds.ofBlocks brink.lo brink.hi).blockVolume = .ok 2) ∧
    (((Cursor.range world world.lo : Cursor Unit).toList ()).length = 2 ^ 96 ∧
      (Bounds.ofBlocks world.lo world.hi).blockVolume = .ok (2 ^ 64 - 1)) := by
  obtain ⟨hwalk, hanswers, hbox⟩ := walk_spec () brink
  obtain ⟨hworld, -, hall⟩ := walk_spec () world
  have hlist : (Cursor.range brink brink.lo : Cursor Unit).toList () =
      [⟨2147483646, 0, .minValue⟩, ⟨.maxValue, 0, .minValue⟩] := by decide +kernel
  have hlength : ((Cursor.range world world.lo : Cursor Unit).toList ()).length = 2 ^ 96 := by
    have hcount := hworld.length_eq
    rw [show _ * _ * _ = ((2 ^ 96 : ℕ) : ℤ) by decide +kernel] at hcount
    exact Int.natCast_inj.1 hcount
  refine ⟨⟨hwalk, ?_, ?_⟩, hlength, ?_⟩
  · rw [hanswers, hlist]
    rfl
  · rw [(hbox _ (by decide +kernel)).2, hlist]
    rfl
  · rw [(hall _ (by decide +kernel)).2, hlength]
    rfl

end Limits

end BlockRange
end RegionRules
