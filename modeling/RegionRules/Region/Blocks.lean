import RegionRules.Region.Cursor
import RegionRules.Region.Strategy

/-!
# Blocks of a region

`Region.blocks` makes the cursor over the blocks of a region in a state.  It fails exactly at its
first test, that the region is block-bounded in that state.

* A box lists its range; a ball or a cylinder scans its bounds.
* A union of static children goes by its strategy.
* A union with dynamic children is frozen and scanned, a dynamic part is frozen and listed.  The
  cursor is pinned to the state of the call, so it never mixes two states.

## Frozen parts

What a dynamic part lists is the frozen form of what it resolves to.  The flag `frozen` of
`cursor` says that the frozen form of the region is meant; below a frozen region the children are
frozen too, and a part marked `static` stands for itself.

Listing a union settles its strategy.  `Region.settle` gives the memo that has them all.
-/

set_option autoImplicit false

namespace RegionRules
namespace Region

variable {σ : Type}

/-- Fails with the region's bounds unless its blocks can be listed. -/
def checkBlockBounded (s : σ) (r : Region σ) : Except BlockError Unit :=
  if r.isBlockBounded s then .ok () else .error (.notBlockBounded (r.bounds s))

/-- The children of a union, or of its frozen form.  Static children are their own frozen form. -/
def parts (s : σ) (children : List (Region σ)) : List (Region σ) :=
  if isStaticAll children then children else toStaticAll s children

/-- The id of a union, or of its frozen form, which is a new union unless the children are
static. -/
def partsId (id : Option UnionId) (children : List (Region σ)) : Option UnionId :=
  if isStaticAll children then id else none

mutual

/-- The cursor over the blocks of a region, or of its frozen form, in a state. -/
def cursor (memo : Memo) (s : σ) (frozen : Bool) : Region σ → Except BlockError (Cursor σ)
  | .empty => .ok .nil
  | .everywhere => Cursor.scanBounds .everywhere .unbounded
  | .cuboid c => Cursor.ofBounds c.bounds
  | .sphere b => Cursor.scanBounds (.sphere b) b.bounds
  | .cylinder c => Cursor.scanBounds (.cylinder c) c.bounds
  | .union id children =>
    let whole : Region σ := .union (partsId id children) (parts s children)
    if frozen || isStaticAll children then
      match memo.strategy s (partsId id children) (parts s children) with
      | .fullScan => Cursor.scanBounds whole (whole.bounds s)
      | .childScan => cursorAll memo s frozen children
      | .filteredChildScan _ => (cursorAll memo s frozen children).map (.distinct ∅)
    else (Cursor.scanBounds whole (whole.bounds s)).map (.pinned s)
  | .static inner => do
    inner.checkBlockBounded s
    cursor memo s false inner
  | .dynamic resolve => do
    (resolve s).checkBlockBounded s
    (cursor memo s true (resolve s)).map (.pinned s)

/-- The cursor over the blocks of each region of the list, one after the other. -/
def cursorAll (memo : Memo) (s : σ) (frozen : Bool) :
    List (Region σ) → Except BlockError (Cursor σ)
  | [] => .ok .nil
  | r :: rs => do
    r.checkBlockBounded s
    let first ← cursor memo s frozen r
    let others ← cursorAll memo s frozen rs
    return .append first others

end

/-- The cursor over the blocks of a region in a state, each once. -/
def blocks (memo : Memo) (s : σ) (r : Region σ) : Except BlockError (Cursor σ) := do
  r.checkBlockBounded s
  r.cursor memo s false

/-! ## Remembered strategies -/

mutual

/-- The memo with the strategies that listing a region, or its frozen form, settles. -/
def settle (s : σ) (frozen : Bool) (memo : Memo) : Region σ → Memo
  | .union id children =>
    if frozen || isStaticAll children then
      let chosen := memo.strategy s (partsId id children) (parts s children)
      let memo := memo.remember (partsId id children) chosen
      match chosen with
      | .fullScan => memo
      | _ => settleAll s frozen memo children
    else memo
  | .static inner => settle s false memo inner
  | .dynamic resolve => settle s true memo (resolve s)
  | _ => memo

/-- The memo with the strategies that listing every region of the list settles. -/
def settleAll (s : σ) (frozen : Bool) (memo : Memo) : List (Region σ) → Memo
  | [] => memo
  | r :: rs => settleAll s frozen (settle s frozen memo r) rs

end

end Region
end RegionRules
