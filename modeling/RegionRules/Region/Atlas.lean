import RegionRules.Region.Blocks

/-!
# Atlases

An atlas keeps the regions of a match under consecutive numbers, together with the strategies that
its unions have settled on.  Copying a region copies what its unions remember, except below a
`static` mark, where copies share one union.

`Region.hold` gives unions their ids: a region that enters an atlas gets new ids for the unions it
owns, and a region that a dynamic part resolves to has ids only below `static` marks, where all
copies share them.
-/

set_option autoImplicit false

namespace RegionRules

/-- How the unions of a region are held. -/
inductive Holding where
  /-- By the region alone: each union gets an id of its own and a copy of what it remembers. -/
  | owned
  /-- By all copies of the region: each union keeps its id, or gets one if it has none. -/
  | shared
  /-- By nobody: no union has an id. -/
  | lent
  deriving DecidableEq

/-- Supply of ids, with the strategies remembered under those given out. -/
structure Ledger where
  fresh : UnionId := 0
  memo : Memo := ∅

namespace Ledger

/-- The id of a union under a holding. -/
def assign (ledger : Ledger) (holding : Holding) (id : Option UnionId) :
    Option UnionId × Ledger :=
  match holding, id with
  | .lent, _ => (none, ledger)
  | .shared, some i => (some i, ledger)
  | .shared, none => (some ledger.fresh, { ledger with fresh := ledger.fresh + 1 })
  | .owned, id =>
    let memo := match ledger.memo.remembered? id with
      | some strategy => ledger.memo.insert ledger.fresh strategy
      | none => ledger.memo
    (some ledger.fresh, ⟨ledger.fresh + 1, memo⟩)

end Ledger

namespace Region

variable {σ : Type}

mutual

/-- The region with ids for its unions, which are held as told; below a `static` mark they are
shared.  What a dynamic part resolves to is left alone. -/
def hold (holding : Holding) (ledger : Ledger) : Region σ → Region σ × Ledger
  | .union id children =>
    let (id, ledger) := ledger.assign holding id
    let (children, ledger) := holdAll holding ledger children
    (.union id children, ledger)
  | .static inner =>
    let (inner, ledger) := hold .shared ledger inner
    (.static inner, ledger)
  | .empty => (.empty, ledger)
  | .everywhere => (.everywhere, ledger)
  | .cuboid c => (.cuboid c, ledger)
  | .sphere b => (.sphere b, ledger)
  | .cylinder c => (.cylinder c, ledger)
  | .dynamic resolve => (.dynamic resolve, ledger)

/-- Every region of the list with ids for its unions. -/
def holdAll (holding : Holding) (ledger : Ledger) :
    List (Region σ) → List (Region σ) × Ledger
  | [] => ([], ledger)
  | r :: rs =>
    let (r, ledger) := hold holding ledger r
    let (rs, ledger) := holdAll holding ledger rs
    (r :: rs, ledger)

end

end Region

/-- Numbered regions and what their unions remember. -/
structure Atlas (σ : Type) where
  regions : Array (Region σ) := #[]
  ledger : Ledger := {}

namespace Atlas

variable {σ : Type}

/-- The region with a number. -/
def get? (atlas : Atlas σ) (number : Nat) : Option (Region σ) := atlas.regions[number]?

/-- The atlas with one more region, whose unions it owns. -/
def add (atlas : Atlas σ) (r : Region σ) : Atlas σ :=
  let (r, ledger) := r.hold .owned atlas.ledger
  ⟨atlas.regions.push r, ledger⟩

/-- Number of the region added last. -/
def last (atlas : Atlas σ) : Nat := atlas.regions.size - 1

/-- The cursor over the blocks of a region; if there is one, its unions settle their
strategies. -/
def blocks (atlas : Atlas σ) (s : σ) (r : Region σ) :
    Except BlockError (Cursor σ) × Atlas σ :=
  let memo := atlas.ledger.memo
  match r.blocks memo s with
  | .error e => (.error e, atlas)
  | .ok cursor =>
    (.ok cursor, { atlas with ledger.memo := r.settle s false memo })

/-- The strategy of a region if it is a union, which settles on it. -/
def strategy? (atlas : Atlas σ) (s : σ) (r : Region σ) : Option Strategy × Atlas σ :=
  let memo := atlas.ledger.memo
  match r with
  | .union id children =>
    let strategy := memo.strategy s id children
    (some strategy, { atlas with ledger.memo := memo.remember id strategy })
  | _ => (none, atlas)

end Atlas

end RegionRules
