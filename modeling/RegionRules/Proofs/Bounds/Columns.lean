import RegionRules.Proofs.Bounds.Cells

/-!
# Ranges and columns of larger boxes

Rounding keeps the order of faces, so a box around another has at least the blocks of that one in
its range (`InWorld.covers_mono`).  The union of boxes is a box around each, unless that one is
empty and has no blocks at all (`covers_foldl_union`).

The columns of a range are all those between the columns of its corners (`mem_columns_iff`), in
particular the columns that its blocks stand in (`ofBlock_mem_columns`).
-/

set_option autoImplicit false

namespace RegionRules

/-! ## Boxes around boxes -/

namespace Bounds

variable {a b : Bounds} {p : BlockPos}

/-- A box whose range has a block lies in the world of blocks. -/
lemma Covers.inWorld (h : b.Covers p) : b.InWorld := by
  obtain ⟨r, hr, -⟩ := h
  have he : ¬ b.isEmpty = true := by
    intro he
    rw [blockRange_of_isEmpty he] at hr
    cases hr
  have hbounded : b.isBlockBounded = true := by
    by_contra hb
    rw [blockRange, Bool.eq_false_iff.2 hb] at hr
    cases hr
  exact (isBlockBounded_iff (Bool.eq_false_iff.2 he)).1 hbounded

/-- **A box around another has its blocks.** -/
lemma InWorld.covers_mono (hb : b.InWorld) (hlower : ∀ i, b.lower.coord i ≤ a.lower.coord i)
    (hupper : ∀ i, a.upper.coord i ≤ b.upper.coord i) (hp : a.Covers p) : b.Covers p := by
  have ha := hp.inWorld
  rw [hb.covers_iff]
  rw [ha.covers_iff] at hp
  intro i
  obtain ⟨hfirst, hlast⟩ := hp i
  exact ⟨Int32.le_trans (Binary64.ceilCoordinate_mono (hb.lower i) (ha.lower i) (hlower i)) hfirst,
    Int32.le_trans hlast (Binary64.floorCoordinate_mono (ha.upper i) (hb.upper i) (hupper i))⟩

lemma InWorld.covers_hull (ha : a.InWorld) (hb : b.InWorld) (hp : a.Covers p ∨ b.Covers p) :
    (a.hull b).Covers p := by
  have haround := ha.naNFree.hull_around hb.naNFree
  rcases hp with hp | hp
  · exact (ha.hull hb).covers_mono (fun i => (haround i).1.1) (fun i => (haround i).1.2) hp
  · exact (ha.hull hb).covers_mono (fun i => (haround i).2.1) (fun i => (haround i).2.2) hp

/-- The union of two boxes that can be listed has the blocks of both. -/
lemma covers_union (ha : a.isBlockBounded = true) (hb : b.isBlockBounded = true)
    (hp : a.Covers p ∨ b.Covers p) : (a.union b).Covers p := by
  obtain ⟨ea, h⟩ | ⟨-, eb, h⟩ | ⟨ea, eb, h⟩ := union_cases a b <;> rw [h]
  · exact hp.resolve_left (not_covers_of_none (blockRange_of_isEmpty ea))
  · exact hp.resolve_right (not_covers_of_none (blockRange_of_isEmpty eb))
  · exact ((isBlockBounded_iff ea).1 ha).covers_hull ((isBlockBounded_iff eb).1 hb) hp

/-- **The union of boxes that can be listed has the blocks of each.** -/
lemma covers_foldl_union {acc : Bounds} {bs : List Bounds} (hacc : acc.isBlockBounded = true)
    (hbs : ∀ b ∈ bs, b.isBlockBounded = true) (hp : acc.Covers p ∨ ∃ b ∈ bs, b.Covers p) :
    (bs.foldl union acc).Covers p := by
  induction bs generalizing acc with
  | nil => simpa using hp
  | cons b bs ih =>
    rw [List.forall_mem_cons] at hbs
    refine ih (isBlockBounded_union hacc hbs.1) hbs.2 ?_
    rcases hp with hp | ⟨c, hc, hp⟩
    · exact .inl (covers_union hacc hbs.1 (.inl hp))
    rcases List.mem_cons.1 hc with rfl | hc
    · exact .inl (covers_union hacc hbs.1 (.inr hp))
    · exact .inr ⟨c, hc, hp⟩

end Bounds

/-! ## Columns -/

namespace Column

lemma toInt_coordinate (c : Int32) : (coordinate c).toInt = c.toInt / 16 := by
  have hlow := c.le_toInt
  have hhigh := c.toInt_lt
  rw [coordinate, show ((chunkSize : ℕ) : ℤ) = 16 from rfl]
  exact Int32.toInt_ofInt_of_le (by omega) (by omega)

lemma mem_coordinates {lo hi c : Int32} :
    c ∈ coordinates lo hi ↔ lo.toInt ≤ c.toInt ∧ c.toInt ≤ hi.toInt := by
  have hlow := lo.le_toInt
  have hhigh := hi.toInt_lt
  simp only [coordinates, BlockRange.span, List.mem_map, List.mem_range]
  constructor
  · rintro ⟨i, hi', rfl⟩
    rw [Int32.toInt_ofInt_of_le (by omega) (by omega)]
    omega
  · rintro ⟨hlo, hhi⟩
    refine ⟨(c.toInt - lo.toInt).toNat, by omega, ?_⟩
    rw [← Int32.toInt_inj, Int32.toInt_ofInt_of_le (by omega) (by omega)]
    omega

end Column

namespace BlockRange

variable {r : BlockRange} {columns : List Column} {p : BlockPos}

/-- The columns between those of the corners of the range, however many they are. -/
def allColumns (r : BlockRange) : List Column :=
  (Column.coordinates (Column.ofBlock r.lo).x (Column.ofBlock r.hi).x).flatMap fun x =>
    (Column.coordinates (Column.ofBlock r.lo).z (Column.ofBlock r.hi).z).map fun z => ⟨x, z⟩

lemma mem_allColumns_iff {c : Column} :
    c ∈ r.allColumns ↔
      (r.lo.x.toInt / 16 ≤ c.x.toInt ∧ c.x.toInt ≤ r.hi.x.toInt / 16) ∧
        r.lo.z.toInt / 16 ≤ c.z.toInt ∧ c.z.toInt ≤ r.hi.z.toInt / 16 := by
  obtain ⟨x, z⟩ := c
  simp only [allColumns, List.mem_flatMap, List.mem_map, Column.mem_coordinates, Column.ofBlock,
    Column.toInt_coordinate, Column.mk.injEq]
  constructor
  · rintro ⟨x, hx, z, hz, rfl, rfl⟩
    exact ⟨hx, hz⟩
  · rintro ⟨hx, hz⟩
    exact ⟨x, hx, z, hz, rfl, rfl⟩

lemma eq_allColumns (h : r.columns = .ok columns) : columns = r.allColumns := by
  unfold BlockRange.columns at h
  dsimp only at h
  split_ifs at h
  cases h
  rfl

/-- **The columns of a range are those between the columns of its corners.** -/
lemma mem_columns_iff (h : r.columns = .ok columns) {c : Column} :
    c ∈ columns ↔
      (r.lo.x.toInt / 16 ≤ c.x.toInt ∧ c.x.toInt ≤ r.hi.x.toInt / 16) ∧
        r.lo.z.toInt / 16 ≤ c.z.toInt ∧ c.z.toInt ≤ r.hi.z.toInt / 16 := by
  rw [eq_allColumns h, mem_allColumns_iff]

/-- Every block of the range stands in one of its columns. -/
lemma ofBlock_mem_columns (h : r.columns = .ok columns) (hp : r.Contains p) :
    Column.ofBlock p ∈ columns := by
  have hx := hp .x
  have hz := hp .z
  simp only [BlockPos.coord, Int32.le_iff_toInt_le] at hx hz
  rw [mem_columns_iff h, Column.ofBlock, Column.toInt_coordinate, Column.toInt_coordinate]
  omega

end BlockRange

/-- **A box has the columns of its blocks.** -/
lemma Bounds.Covers.ofBlock_mem_columns {b : Bounds} {p : BlockPos} {columns : List Column}
    (hp : b.Covers p) (h : b.columns = .ok columns) : Column.ofBlock p ∈ columns := by
  obtain ⟨r, hr, hcontains⟩ := hp
  rw [Bounds.columns, hr] at h
  exact BlockRange.ofBlock_mem_columns h hcontains

end RegionRules
