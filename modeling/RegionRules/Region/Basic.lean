import RegionRules.Region.Shape
import RegionRules.Bounds.BlockRange

/-!
# Regions

A region is a set of points of the world: a primitive shape, a union of regions, or a region that
follows the state of the match.  A block belongs to a region when its centre does.

## State

`σ` is the type of match states.  A `dynamic` part is resolved anew against the state given with
every question, so a region denotes a set of points *per state*.  `Region.toStatic` resolves all
dynamic parts against one state; each leaves a `static` part behind, which marks that its content
was resolved and counts as independent of the state.

Nothing stops a caller from putting a `static` mark on a region that has dynamic parts.  Such a
region claims to be static, yet its answers follow the state.

## Recursion

A union has a list of children and a dynamic part a function, so the functions below recurse over
regions and lists of regions together.  The companion on lists is named with the suffix `All`,
`Any` or `From`.
-/

set_option autoImplicit false

namespace RegionRules

/-- Names the place where the strategy of a union is remembered. -/
abbrev UnionId := Nat

/-- A set of points, depending on a match state. -/
inductive Region (σ : Type) where
  /-- No point. -/
  | empty
  /-- Every point. -/
  | everywhere
  /-- The points of a box. -/
  | cuboid (shape : Cuboid)
  /-- The points of a ball. -/
  | sphere (shape : Sphere)
  /-- The points of an upright cylinder. -/
  | cylinder (shape : Cylinder)
  /-- The points of any child.  A union without an `id` remembers no strategy. -/
  | union (id : Option UnionId) (children : List (Region σ))
  /-- The points of a region that was resolved. -/
  | static (inner : Region σ)
  /-- The points of the region that the state resolves to. -/
  | dynamic (resolve : σ → Region σ)

namespace Region

variable {σ : Type}

/-! ## Construction -/

/-- The box filled by the blocks between two corner blocks. -/
def cuboidBlocks (a b : BlockPos) : Region σ := .cuboid (.ofBlocks a b)

/-- The box filled by one block. -/
def block (b : BlockPos) : Region σ := .cuboid (.block b)

/-- Union of regions; of none it is the empty region, and one region is its own union. -/
def unionOf : List (Region σ) → Region σ
  | [] => .empty
  | [r] => r
  | rs => .union none rs

/-! ## Membership -/

mutual

/-- The point lies in the region. -/
def contains (s : σ) (p : Vec3) : Region σ → Bool
  | .empty => false
  | .everywhere => true
  | .cuboid c => c.contains p
  | .sphere b => b.contains p
  | .cylinder c => c.contains p
  | .union _ children => containsAny s p children
  | .static inner => contains s p inner
  | .dynamic resolve => contains s p (resolve s)

/-- The point lies in some region of the list. -/
def containsAny (s : σ) (p : Vec3) : List (Region σ) → Bool
  | [] => false
  | r :: rs => contains s p r || containsAny s p rs

end

/-- The block's centre lies in the region. -/
def containsBlock (s : σ) (b : BlockPos) (r : Region σ) : Bool := r.contains s b.center

/-- The move crosses into the region.  An unknown origin counts as outside. -/
def enters (s : σ) (origin : Option Vec3) (target : Vec3) (r : Region σ) : Bool :=
  origin.all (fun p => !r.contains s p) && r.contains s target

/-- The move crosses out of the region.  An unknown origin counts as inside. -/
def exits (s : σ) (origin : Option Vec3) (target : Vec3) (r : Region σ) : Bool :=
  origin.all (fun p => r.contains s p) && !r.contains s target

/-! ## Summaries -/

mutual

/-- A box that the region's points lie in. -/
def bounds (s : σ) : Region σ → Bounds
  | .empty => .empty
  | .everywhere => .unbounded
  | .cuboid c => c.bounds
  | .sphere b => b.bounds
  | .cylinder c => c.bounds
  | .union _ children => boundsFrom s .empty children
  | .static inner => bounds s inner
  | .dynamic resolve => bounds s (resolve s)

/-- A box around `acc` and the regions of the list. -/
def boundsFrom (s : σ) (acc : Bounds) : List (Region σ) → Bounds
  | [] => acc
  | r :: rs => boundsFrom s (acc.union (bounds s r)) rs

end

mutual

/-- The region's blocks can be listed: every part has bounds within the world of blocks. -/
def isBlockBounded (s : σ) : Region σ → Bool
  | .empty => true
  | .everywhere => false
  | .cuboid c => c.bounds.isBlockBounded
  | .sphere b => b.bounds.isBlockBounded
  | .cylinder c => c.bounds.isBlockBounded
  | .union _ children => isBlockBoundedAll s children
  | .static inner => isBlockBounded s inner
  | .dynamic resolve => isBlockBounded s (resolve s)

/-- The blocks of every region of the list can be listed. -/
def isBlockBoundedAll (s : σ) : List (Region σ) → Bool
  | [] => true
  | r :: rs => isBlockBounded s r && isBlockBoundedAll s rs

end

mutual

/-- No part of the region has points, judged by the bounds of its primitive shapes. -/
def isEmpty (s : σ) : Region σ → Bool
  | .empty => true
  | .everywhere => false
  | .cuboid c => c.bounds.isEmpty
  | .sphere b => b.bounds.isEmpty
  | .cylinder c => c.bounds.isEmpty
  | .union _ children => isEmptyAll s children
  | .static inner => isEmpty s inner
  | .dynamic resolve => isEmpty s (resolve s)

/-- No region of the list has points. -/
def isEmptyAll (s : σ) : List (Region σ) → Bool
  | [] => true
  | r :: rs => isEmpty s r && isEmptyAll s rs

end

/-- Number of blocks in the region's bounds, held at the volume limit. -/
def blockVolume (s : σ) (r : Region σ) : Except BlockError Nat := (r.bounds s).blockVolume

/-- Chunk columns touched by the region's bounds. -/
def columns (s : σ) (r : Region σ) : Except BlockError (List Column) := (r.bounds s).columns

/-! ## Freezing -/

mutual

/-- The region has no dynamic part outside its static parts. -/
def isStatic : Region σ → Bool
  | .union _ children => isStaticAll children
  | .dynamic _ => false
  | _ => true

/-- Every region of the list is static. -/
def isStaticAll : List (Region σ) → Bool
  | [] => true
  | r :: rs => isStatic r && isStaticAll rs

end

mutual

/-- The region with every dynamic part resolved against the state.  Static regions stay as they
are, a union with its place for a strategy. -/
def toStatic (s : σ) : Region σ → Region σ
  | .union id children =>
    if isStaticAll children then .union id children else .union none (toStaticAll s children)
  | .dynamic resolve => .static (toStatic s (resolve s))
  | .empty => .empty
  | .everywhere => .everywhere
  | .cuboid c => .cuboid c
  | .sphere b => .sphere b
  | .cylinder c => .cylinder c
  | .static inner => .static inner

/-- Every region of the list with its dynamic parts resolved. -/
def toStaticAll (s : σ) : List (Region σ) → List (Region σ)
  | [] => []
  | r :: rs => toStatic s r :: toStaticAll s rs

end

end Region

end RegionRules
