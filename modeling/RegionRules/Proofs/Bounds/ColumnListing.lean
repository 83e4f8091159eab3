import RegionRules.Proofs.Bounds.Columns
import RegionRules.Proofs.Bounds.Volumes

/-!
# Listing chunk columns

The columns of a range are the places of its blocks divided by the chunk size and rounded down
(`BlockRange.columnSet`).  They are listed in ascending order (`BlockRange.pairwise_allColumns`)
unless there are more than `maxColumns`, and then they are counted (`Bounds.columns_spec`).

The count is not that of a list: it is a product of spans, taken in 32 bits and widened to 64.  The
columns of the world are at most `2 ^ 28` along either axis, so nothing is lost on the way
(`BlockRange.countsExactly`), and the count is the length the list would have.
-/

set_option autoImplicit false

namespace RegionRules

namespace Column

variable {lo hi : Int32}

/-- The first column comes before the second: compared by `x`, then `z`. -/
def Before (c d : Column) : Prop := c.x < d.x ∨ c.x = d.x ∧ c.z < d.z

lemma Before.ne {c d : Column} (h : c.Before d) : c ≠ d := by
  rintro rfl
  rcases h with h | ⟨-, h⟩ <;> exact Int32.lt_irrefl h

/-! ## Coordinates -/

lemma length_coordinates (lo hi : Int32) : (coordinates lo hi).length = BlockRange.span lo hi := by
  simp [coordinates]

lemma pairwise_coordinates (lo hi : Int32) : (coordinates lo hi).Pairwise (· < ·) := by
  have hlow := lo.le_toInt
  have hhigh := hi.toInt_lt
  refine List.pairwise_map.2 (List.pairwise_lt_range.imp_of_mem fun {i j} _ hj hij => ?_)
  rw [List.mem_range, BlockRange.span] at hj
  rw [Int32.lt_iff_toInt_lt, Int32.toInt_ofInt_of_le (by omega) (by omega),
    Int32.toInt_ofInt_of_le (by omega) (by omega)]
  omega

/-- Chunk coordinates have four bits less than block coordinates. -/
lemma coordinate_mem (c : Int32) :
    -134217728 ≤ (coordinate c).toInt ∧ (coordinate c).toInt < 134217728 := by
  have hlow := c.le_toInt
  have hhigh := c.toInt_lt
  rw [toInt_coordinate]
  omega

lemma toInt_coordinate_mono (h : lo ≤ hi) : (coordinate lo).toInt ≤ (coordinate hi).toInt := by
  rw [toInt_coordinate, toInt_coordinate]
  exact Int.ediv_le_ediv (by decide) (Int32.le_iff_toInt_le.1 h)

/-- Every number between two divided coordinates is a divided coordinate between them. -/
lemma exists_coordinate_iff (h : lo ≤ hi) {c : ℤ} :
    (∃ x : Int32, (lo.toInt ≤ x.toInt ∧ x.toInt ≤ hi.toInt) ∧ c = x.toInt / 16) ↔
      lo.toInt / 16 ≤ c ∧ c ≤ hi.toInt / 16 := by
  have hlow := lo.le_toInt
  have hhigh := hi.toInt_lt
  rw [Int32.le_iff_toInt_le] at h
  constructor
  · rintro ⟨x, hx, rfl⟩
    omega
  · intro hc
    -- The first coordinate of the chunk, or `lo` if the chunk begins before it.
    refine ⟨Int32.ofInt (max lo.toInt (16 * c)), ?_⟩
    rw [Int32.toInt_ofInt_of_le (by omega) (by omega)]
    omega

/-! ## Counting in words -/

/-- The numbers on the way to the count of chunk coordinates are those of the integers: none
overflows, and none changes its sign when it is widened. -/
structure CountsExactly (lo hi : Int32) : Prop where
  toInt_sub : (hi - lo).toInt = hi.toInt - lo.toInt
  toInt_sub_add_one : (hi - lo + 1).toInt = hi.toInt - lo.toInt + 1
  toNat_extent : ((extent lo hi).toNat : ℤ) = (hi - lo + 1).toInt

lemma countsExactly_coordinate (h : lo ≤ hi) : CountsExactly (coordinate lo) (coordinate hi) := by
  have hlo := coordinate_mem lo
  have hhi := coordinate_mem hi
  have hle := toInt_coordinate_mono h
  have hsub : (coordinate hi - coordinate lo).toInt =
      (coordinate hi).toInt - (coordinate lo).toInt := by
    rw [Int32.toInt_sub]
    exact Int.bmod_eq_of_le (by omega) (by omega)
  have hadd : (coordinate hi - coordinate lo + 1).toInt =
      (coordinate hi).toInt - (coordinate lo).toInt + 1 := by
    rw [Int32.toInt_add, Int32.toInt_one, hsub]
    exact Int.bmod_eq_of_le (by omega) (by omega)
  refine ⟨hsub, hadd, ?_⟩
  have hnonneg : 0 ≤ (coordinate hi - coordinate lo + 1).toInt := by omega
  rw [extent, BlockRange.toNat_toUInt64 (k := (coordinate hi - coordinate lo + 1).toInt.toNat)]
  · exact Int.toNat_of_nonneg hnonneg
  · rw [Int32.toInt_toInt64, Int.toNat_of_nonneg hnonneg]

lemma toNat_extent_coordinate (h : lo ≤ hi) :
    (extent (coordinate lo) (coordinate hi)).toNat =
        BlockRange.span (coordinate lo) (coordinate hi) ∧
      (extent (coordinate lo) (coordinate hi)).toNat ≤ 2 ^ 28 := by
  have hexact := countsExactly_coordinate h
  have hcount := hexact.toNat_extent.trans hexact.toInt_sub_add_one
  have hlo := coordinate_mem lo
  have hhi := coordinate_mem hi
  rw [BlockRange.span]
  omega

end Column

namespace BlockRange

variable {r : BlockRange} {c : Column}

/-- The columns that the blocks of the range stand in. -/
def columnSet (r : BlockRange) : Set Column :=
  {c | ∃ p, r.Contains p ∧ c.x.toInt = p.x.toInt / chunkSize ∧ c.z.toInt = p.z.toInt / chunkSize}

/-- Every number on the way to the count of the columns is exact: the divided coordinates, the spans
along both axes, and their product. -/
structure CountsExactly (r : BlockRange) : Prop where
  toInt_coordinate : ∀ c : Int32, (Column.coordinate c).toInt = c.toInt / chunkSize
  x : Column.CountsExactly (Column.coordinate r.lo.x) (Column.coordinate r.hi.x)
  z : Column.CountsExactly (Column.coordinate r.lo.z) (Column.coordinate r.hi.z)
  toNat_mul :
    (Column.extent (Column.coordinate r.lo.x) (Column.coordinate r.hi.x) *
        Column.extent (Column.coordinate r.lo.z) (Column.coordinate r.hi.z)).toNat =
      (Column.extent (Column.coordinate r.lo.x) (Column.coordinate r.hi.x)).toNat *
        (Column.extent (Column.coordinate r.lo.z) (Column.coordinate r.hi.z)).toNat

/-- **Nothing is lost on the way to the count of the columns,** up to the whole plane. -/
lemma countsExactly (r : BlockRange) : r.CountsExactly where
  toInt_coordinate := Column.toInt_coordinate
  x := Column.countsExactly_coordinate r.le_x
  z := Column.countsExactly_coordinate r.le_z
  toNat_mul := by
    have hx := (Column.toNat_extent_coordinate r.le_x).2
    have hz := (Column.toNat_extent_coordinate r.le_z).2
    have hmul := Nat.mul_le_mul hx hz
    rw [UInt64.toNat_mul]
    exact Nat.mod_eq_of_lt (by omega)

/-! ## All columns -/

lemma mem_columnSet_iff : c ∈ r.columnSet ↔ c ∈ r.allColumns := by
  have hlo := contains_iff.1 r.contains_lo
  rw [mem_allColumns_iff, ← Column.exists_coordinate_iff r.le_x,
    ← Column.exists_coordinate_iff r.le_z]
  constructor
  · rintro ⟨p, hp, hx, hz⟩
    rw [contains_iff] at hp
    exact ⟨⟨p.x, hp.1, hx⟩, p.z, hp.2.2, hz⟩
  · rintro ⟨⟨x, hx, hcx⟩, z, hz, hcz⟩
    exact ⟨⟨x, r.lo.y, z⟩, contains_iff.2 ⟨hx, hlo.2.1, hz⟩, hcx, hcz⟩

lemma pairwise_allColumns (r : BlockRange) : r.allColumns.Pairwise Column.Before := by
  refine List.pairwise_flatMap.2 ⟨fun x _ => ?_, ?_⟩
  · exact List.pairwise_map.2 ((Column.pairwise_coordinates _ _).imp fun h => .inr ⟨rfl, h⟩)
  · refine (Column.pairwise_coordinates _ _).imp fun {x x'} h c hc d hd => ?_
    obtain ⟨_, _, rfl⟩ := List.mem_map.1 hc
    obtain ⟨_, _, rfl⟩ := List.mem_map.1 hd
    exact .inl h

lemma length_allColumns (r : BlockRange) :
    r.allColumns.length = span (Column.ofBlock r.lo).x (Column.ofBlock r.hi).x *
      span (Column.ofBlock r.lo).z (Column.ofBlock r.hi).z := by
  simp [allColumns, List.length_flatMap, Column.length_coordinates]

/-- A range has as many columns as a list of them would have. -/
lemma ncard_columnSet (r : BlockRange) : r.columnSet.ncard = r.allColumns.length :=
  ncard_eq_length (r.pairwise_allColumns.imp fun h => h.ne) fun _ => mem_columnSet_iff.symm

/-- The count is compared with the limit, and it is the number of columns. -/
lemma columns_eq (r : BlockRange) :
    r.columns = if maxColumns < r.columnSet.ncard then .error (.tooManyColumns r.columnSet.ncard)
      else .ok r.allColumns := by
  have hcount : (Column.extent (Column.ofBlock r.lo).x (Column.ofBlock r.hi).x *
      Column.extent (Column.ofBlock r.lo).z (Column.ofBlock r.hi).z).toNat =
        r.columnSet.ncard := by
    rw [ncard_columnSet, length_allColumns]
    refine r.countsExactly.toNat_mul.trans ?_
    rw [(Column.toNat_extent_coordinate r.le_x).1, (Column.toNat_extent_coordinate r.le_z).1]
    rfl
  rw [columns, hcount]
  rfl

/-- The columns of the range are the result, in ascending order, unless there are too many; then the
result is how many there are. -/
structure ListsColumns (r : BlockRange) (result : Except BlockError (List Column)) : Prop where
  listed : r.columnSet.ncard ≤ maxColumns → ∃ columns, result = .ok columns ∧
    columns.Pairwise Column.Before ∧ ∀ c, c ∈ columns ↔ c ∈ r.columnSet
  refused : maxColumns < r.columnSet.ncard → result = .error (.tooManyColumns r.columnSet.ncard)

lemma listsColumns (r : BlockRange) : r.ListsColumns r.columns where
  listed h := by
    refine ⟨r.allColumns, ?_, r.pairwise_allColumns, fun c => mem_columnSet_iff.symm⟩
    rw [columns_eq, if_neg (Nat.not_lt.2 h)]
  refused h := by rw [columns_eq, if_pos h]

end BlockRange

namespace Bounds

variable {b : Bounds}

/-- **The columns of a box are listed in ascending order or counted.**  A box whose blocks can be
listed has no block, and then no column, or it has a range of blocks.  The columns of the range are
listed, each once and ascending by `x`, then `z`, if there are at most `maxColumns`; otherwise the
error has their exact number.  Nothing overflows on the way to that number, whatever the range. -/
theorem columns_spec (h : b.isBlockBounded = true) :
    ((b.blockRange = .ok none ∧ b.columns = .ok []) ∨
      ∃ r, b.blockRange = .ok (some r) ∧ r.ListsColumns b.columns) ∧
      ∀ r : BlockRange, r.CountsExactly := by
  refine ⟨?_, BlockRange.countsExactly⟩
  obtain ⟨_ | r, hrange⟩ := exists_blockRange h
  · refine .inl ⟨hrange, ?_⟩
    rw [columns, hrange]
    rfl
  · refine .inr ⟨r, hrange, ?_⟩
    have hcolumns : b.columns = r.columns := by
      rw [columns, hrange]
      rfl
    rw [hcolumns]
    exact r.listsColumns

section Strip

/-- The blocks from `-1` to `16` along the first axis, over the chunk border at zero. -/
def strip : Bounds := ofBlocks ⟨-1, 0, 0⟩ ⟨16, 0, 3⟩

/-- One layer of blocks through the whole world. -/
def plain : Bounds := ofBlocks ⟨.minValue, 0, .minValue⟩ ⟨.maxValue, 0, .maxValue⟩

/-- The strip is in three columns, the first of them on the negative side.  The whole layer is in
`2 ^ 56`, as many as their error says. -/
theorem strip_columns :
    (strip.isBlockBounded = true ∧ strip.columns = .ok [⟨-1, 0⟩, ⟨0, 0⟩, ⟨1, 0⟩] ∧
      ∃ r, strip.blockRange = .ok (some r) ∧ r.ListsColumns strip.columns ∧ r.CountsExactly) ∧
      plain.isBlockBounded = true ∧ plain.columns = .error (.tooManyColumns (2 ^ 56)) ∧
        ∃ r, plain.blockRange = .ok (some r) ∧ r.ListsColumns plain.columns ∧
          r.CountsExactly := by
  have hstrip : strip.isBlockBounded = true := by decide +kernel
  have hplain : plain.isBlockBounded = true := by decide +kernel
  obtain ⟨hlisted, hexact⟩ := columns_spec hstrip
  obtain ⟨hcounted, -⟩ := columns_spec hplain
  refine ⟨⟨hstrip, by decide +kernel, ?_⟩, hplain, by decide +kernel, ?_⟩
  · obtain ⟨r, hrange, hlists⟩ := hlisted.resolve_left fun h => absurd h.2 (by decide +kernel)
    exact ⟨r, hrange, hlists, hexact r⟩
  · obtain ⟨r, hrange, hlists⟩ := hcounted.resolve_left fun h => absurd h.2 (by decide +kernel)
    exact ⟨r, hrange, hlists, hexact r⟩

end Strip

end Bounds
end RegionRules
