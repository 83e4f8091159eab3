import RegionRules.Region.Basic
import Std.Data.HashMap

/-!
# How a union lists its blocks

Three strategies list the blocks of a union: scan the bounds of the whole, chain the children's
own lists, or chain them and drop repeats.  Chaining is right as it stands only for children that
share no block; `Strategy.select` takes it when their bounds are pairwise disjoint.  Otherwise the
volumes decide between scanning a dense union and filtering a sparse one.

A union keeps the strategy of its first listing.  Where is the matter of a `Memo`, a table from
the ids of unions to strategies.
-/

set_option autoImplicit false

namespace RegionRules

/-- How the blocks of a union are listed. -/
inductive Strategy where
  /-- Scan the bounds of the union for blocks that it contains. -/
  | fullScan
  /-- Chain the lists of the children. -/
  | childScan
  /-- Chain the lists of the children and drop repeats; `capacity` is their summed volume. -/
  | filteredChildScan (capacity : Nat)
  deriving DecidableEq

namespace Strategy

/-- From this many children on their bounds are not compared. -/
def disjointCheckLimit : Nat := 100

/-- A union is dense if its volume is below this multiple of its children's summed volume. -/
def densityFactor : Nat := 5

/-- Volume of a box; the limit if its blocks cannot be listed. -/
def volume (b : Bounds) : Nat :=
  match b.blockVolume with
  | .ok n => n
  | .error _ => volumeLimit

/-- Summed volume of boxes, held at the volume limit at every step. -/
def summedVolume (bs : List Bounds) : Nat :=
  bs.foldl (fun sum b => cappedVolume (sum + volume b)) 0

/-- No two of the boxes overlap. -/
def pairwiseDisjoint : List Bounds → Bool
  | [] => true
  | b :: bs => bs.all (b.disjoint ·) && pairwiseDisjoint bs

/-- Strategy for a union of children with the given bounds, in the given bounds of the whole. -/
def ofBounds (children : List Bounds) (whole : Bounds) : Strategy :=
  if children.length < disjointCheckLimit && pairwiseDisjoint children then .childScan
  else
    let childVolume := summedVolume children
    if volume whole < cappedVolume (childVolume * densityFactor) then .fullScan
    else .filteredChildScan childVolume

/-- Strategy that a union of the given children takes when it is first listed in a state.  A union
with dynamic children is scanned. -/
def select {σ : Type} (s : σ) (children : List (Region σ)) : Strategy :=
  if Region.isStaticAll children then
    ofBounds (children.map (·.bounds s)) (Region.boundsFrom s .empty children)
  else .fullScan

end Strategy

/-- Strategies remembered for unions. -/
abbrev Memo := Std.HashMap UnionId Strategy

namespace Memo

/-- The strategy remembered for a union, if it has an id. -/
def remembered? (memo : Memo) (id : Option UnionId) : Option Strategy := id.bind (memo[·]?)

/-- The memo that remembers a strategy for a union, if it has an id. -/
def remember (memo : Memo) (id : Option UnionId) (strategy : Strategy) : Memo :=
  match id with
  | some i => memo.insert i strategy
  | none => memo

/-- The strategy of a union: the one remembered, else the one it selects now. -/
def strategy {σ : Type} (memo : Memo) (s : σ) (id : Option UnionId)
    (children : List (Region σ)) : Strategy :=
  (memo.remembered? id).getD (.select s children)

end Memo

end RegionRules
