import RegionRules.Region.Basic
import Std.Data.HashSet

/-!
# Block cursors

A cursor is a list of blocks not yet produced: a place in a range, a scan of a range for the
blocks of a region, cursors one after the other, a cursor whose repeats are dropped, or a cursor
that stays in one match state.  Lists of blocks can be far too long to build, so a cursor moves by
single steps (`Cursor.step`) and only on demand (`Cursor.next?`).

A scan asks its region in the state of the step, not in the state in which the cursor was made.

Every step makes a cursor smaller (`Cursor.size_step`), so asking for the next block ends.
-/

set_option autoImplicit false

namespace RegionRules

/-! ## Progress through a range -/

namespace BlockRange

/-- How far a position is from the end of the range.  One step along an axis weighs more than all
positions of the faster axes. -/
def distance (r : BlockRange) (p : BlockPos) : Nat :=
  (r.hi.x.toInt - p.x.toInt).toNat + (r.hi.y.toInt - p.y.toInt).toNat * 0x200000000 +
    (r.hi.z.toInt - p.z.toInt).toNat * 0x40000000000000000

theorem toInt_add_one_of_lt {a b : Int32} (h : a < b) : (a + 1).toInt = a.toInt + 1 := by
  have hab := Int32.lt_iff_toInt_lt.1 h
  have hb := b.toInt_lt
  have ha := a.le_toInt
  have h1 : (1 : Int32).toInt = 1 := by decide
  rw [Int32.toInt_add, h1]
  exact Int.bmod_eq_of_le (by omega) (by omega)

theorem distance_next? {r : BlockRange} {p q : BlockPos} (h : r.next? p = some q) :
    r.distance q < r.distance p := by
  have hx := r.hi.x.toInt_lt
  have hy := r.hi.y.toInt_lt
  have lx := r.lo.x.le_toInt
  have ly := r.lo.y.le_toInt
  unfold next? at h
  split at h
  · next hlt =>
    have := Int32.lt_iff_toInt_lt.1 hlt
    cases h
    simp only [distance, toInt_add_one_of_lt hlt]
    omega
  · split at h
    · next hlt =>
      have := Int32.lt_iff_toInt_lt.1 hlt
      cases h
      simp only [distance, toInt_add_one_of_lt hlt]
      omega
    · split at h
      · next hlt =>
        have := Int32.lt_iff_toInt_lt.1 hlt
        cases h
        simp only [distance, toInt_add_one_of_lt hlt]
        omega
      · cases h

end BlockRange

/-! ## Cursors -/

/-- Blocks still to be produced. -/
inductive Cursor (σ : Type) where
  /-- No block. -/
  | nil
  /-- The blocks of the range from `place` on. -/
  | range (blocks : BlockRange) (place : BlockPos)
  /-- The blocks of the range from `place` on that the region contains. -/
  | scan (region : Region σ) (blocks : BlockRange) (place : BlockPos)
  /-- The blocks of the first cursor, then those of the second. -/
  | append (first second : Cursor σ)
  /-- The blocks of the cursor that are not in `seen`, each once. -/
  | distinct (seen : Std.HashSet BlockPos) (blocks : Cursor σ)
  /-- The blocks of the cursor in the state `s`, whatever the state of the step. -/
  | pinned (s : σ) (blocks : Cursor σ)

/-- What a step of a cursor comes to. -/
inductive Cursor.Step (σ : Type) where
  /-- There is no further block. -/
  | done
  /-- Go on with `rest`. -/
  | skip (rest : Cursor σ)
  /-- Produce a block and go on with `rest`. -/
  | yield (block : BlockPos) (rest : Cursor σ)

namespace Cursor

variable {σ : Type}

/-- The cursor over the blocks of a range that start at a place, if there is one. -/
def rangeFrom (blocks : BlockRange) : Option BlockPos → Cursor σ
  | some place => .range blocks place
  | none => .nil

/-- The cursor over the blocks of a region in a range that start at a place, if there is one. -/
def scanFrom (region : Region σ) (blocks : BlockRange) : Option BlockPos → Cursor σ
  | some place => .scan region blocks place
  | none => .nil

/-- The cursor over the blocks of a box. -/
def ofBounds (b : Bounds) : Except BlockError (Cursor σ) :=
  b.blockRange.map fun
    | some blocks => .range blocks blocks.lo
    | none => .nil

/-- The cursor over the blocks of a box that a region contains. -/
def scanBounds (region : Region σ) (b : Bounds) : Except BlockError (Cursor σ) :=
  b.blockRange.map fun
    | some blocks => .scan region blocks blocks.lo
    | none => .nil

/-- One step of a cursor in a state. -/
def step (s : σ) : Cursor σ → Step σ
  | .nil => .done
  | .range blocks place => .yield place (rangeFrom blocks (blocks.next? place))
  | .scan region blocks place =>
    let rest := scanFrom region blocks (blocks.next? place)
    if region.containsBlock s place then .yield place rest else .skip rest
  | .append first second =>
    match step s first with
    | .done => .skip second
    | .skip rest => .skip (.append rest second)
    | .yield block rest => .yield block (.append rest second)
  | .distinct seen blocks =>
    match step s blocks with
    | .done => .done
    | .skip rest => .skip (.distinct seen rest)
    | .yield block rest =>
      if seen.contains block then .skip (.distinct seen rest)
      else .yield block (.distinct (seen.insert block) rest)
  | .pinned held blocks =>
    match step held blocks with
    | .done => .done
    | .skip rest => .skip (.pinned held rest)
    | .yield block rest => .yield block (.pinned held rest)

/-! ## Progress -/

/-- Bound on the number of steps left. -/
def size : Cursor σ → Nat
  | .nil => 0
  | .range blocks place => blocks.distance place + 1
  | .scan _ blocks place => blocks.distance place + 1
  | .append first second => first.size + second.size + 1
  | .distinct _ blocks => blocks.size
  | .pinned _ blocks => blocks.size

/-- What is left after a step, if anything. -/
def Step.rest? : Step σ → Option (Cursor σ)
  | .done => none
  | .skip rest => some rest
  | .yield _ rest => some rest

theorem size_rangeFrom (blocks : BlockRange) (place : BlockPos) :
    (rangeFrom blocks (blocks.next? place) : Cursor σ).size < blocks.distance place + 1 := by
  cases h : blocks.next? place with
  | none => simp [rangeFrom, size]
  | some q =>
    have := BlockRange.distance_next? h
    simp only [rangeFrom, size]
    omega

theorem size_scanFrom (region : Region σ) (blocks : BlockRange) (place : BlockPos) :
    (scanFrom region blocks (blocks.next? place)).size < blocks.distance place + 1 := by
  cases h : blocks.next? place with
  | none => simp [scanFrom, size]
  | some q =>
    have := BlockRange.distance_next? h
    simp only [scanFrom, size]
    omega

/-- A step makes a cursor smaller. -/
theorem size_step (s : σ) (c rest : Cursor σ) (h : (c.step s).rest? = some rest) :
    rest.size < c.size := by
  induction c generalizing s rest with
  | nil => simp [step, Step.rest?] at h
  | range blocks place =>
    simp only [step, Step.rest?, Option.some.injEq] at h
    subst h
    exact size_rangeFrom blocks place
  | scan region blocks place =>
    simp only [step] at h
    split at h <;> simp only [Step.rest?, Option.some.injEq] at h <;> subst h <;>
      exact size_scanFrom region blocks place
  | append first second ihf _ =>
    simp only [step] at h
    split at h <;> simp only [Step.rest?, Option.some.injEq] at h <;> subst h
    · simp only [size]; omega
    · next r hr => have := ihf s r (by rw [hr]; rfl); simp only [size]; omega
    · next r hr => have := ihf s r (by rw [hr]; rfl); simp only [size]; omega
  | distinct seen blocks ih =>
    simp only [step] at h
    split at h
    · simp [Step.rest?] at h
    · next r hr =>
      simp only [Step.rest?, Option.some.injEq] at h
      subst h
      exact ih s r (by rw [hr]; rfl)
    · next b r hr =>
      split at h <;> simp only [Step.rest?, Option.some.injEq] at h <;> subst h <;>
        exact ih s r (by rw [hr]; rfl)
  | pinned held blocks ih =>
    simp only [step] at h
    split at h
    · simp [Step.rest?] at h
    · next r hr =>
      simp only [Step.rest?, Option.some.injEq] at h
      subst h
      exact ih held r (by rw [hr]; rfl)
    · next b r hr =>
      simp only [Step.rest?, Option.some.injEq] at h
      subst h
      exact ih held r (by rw [hr]; rfl)

/-! ## Reading a cursor -/

/-- The next block in a state, with the cursor over the blocks after it. -/
def next? (s : σ) (c : Cursor σ) : Option (BlockPos × Cursor σ) :=
  match _h : c.step s with
  | .done => none
  | .skip rest => next? s rest
  | .yield block rest => some (block, rest)
termination_by c.size
decreasing_by exact size_step s c rest (by rw [_h]; rfl)

/-- All blocks of a cursor in one state. -/
def toList (s : σ) (c : Cursor σ) : List BlockPos :=
  match _h : c.step s with
  | .done => []
  | .skip rest => toList s rest
  | .yield block rest => block :: toList s rest
termination_by c.size
decreasing_by all_goals exact size_step s c rest (by rw [_h]; rfl)

/-- Feed at most `limit` blocks of a cursor, in one state, into an accumulator; also gives the
cursor over the blocks after them. -/
def foldUpTo {α : Type} (f : α → BlockPos → α) (s : σ) : Nat → α → Cursor σ → α × Cursor σ
  | 0, acc, c => (acc, c)
  | limit + 1, acc, c =>
    match c.next? s with
    | none => (acc, .nil)
    | some (block, rest) => foldUpTo f s limit (f acc block) rest

end Cursor

end RegionRules
