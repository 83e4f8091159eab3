import RegionRules.Proofs.Bounds.Membership
import RegionRules.Region.Basic

/-!
# Regions as trees

A union has a list of children, and the functions on regions recurse over such lists by companions
of their own.  Here each companion is the usual operation on lists (`containsAny_eq_true`,
`isStaticAll_eq_true`, `toStaticAll_eq_map`, `boundsFrom_eq_foldl`), and regions get one induction
principle, whose case for a union has the hypothesis for every child (`Region.induction`).

Two things follow at once.  The bounds of a region that can be listed can be listed
(`isBlockBounded_bounds`), and they hold what the bounds of a child hold
(`contains_bounds_union`).  A frozen region is static (`isStatic_toStatic`) and answers as the
region did (`contains_toStatic`, `bounds_toStatic`, `isEmpty_toStatic`,
`isBlockBounded_toStatic`).
-/

set_option autoImplicit false

namespace RegionRules
namespace Region

variable {σ : Type} {s : σ} {r : Region σ} {children : List (Region σ)}

/-! ## Induction -/

section Induction

variable {motive : Region σ → Prop} (empty : motive .empty) (everywhere : motive .everywhere)
  (cuboid : ∀ c, motive (.cuboid c)) (sphere : ∀ b, motive (.sphere b))
  (cylinder : ∀ c, motive (.cylinder c))
  (union : ∀ id children, (∀ r ∈ children, motive r) → motive (.union id children))
  (static : ∀ inner, motive inner → motive (.static inner))
  (dynamic : ∀ resolve, (∀ t, motive (resolve t)) → motive (.dynamic resolve))

include empty everywhere cuboid sphere cylinder union static dynamic

/-- A property of regions passes from the children of a union, from what a mark marks, and from all
that a dynamic part can resolve to. -/
@[elab_as_elim, induction_eliminator]
theorem induction (r : Region σ) : motive r :=
  @Region.rec σ motive (fun rs => ∀ r ∈ rs, motive r)
    empty everywhere cuboid sphere cylinder union static dynamic
    (fun _ h => nomatch h)
    (fun _ _ ihr ihrs _ h => (List.mem_cons.1 h).elim (fun e => e ▸ ihr) (ihrs _)) r

end Induction

/-! ## Lists of regions -/

lemma containsAny_eq_true {p : Vec3} {rs : List (Region σ)} :
    containsAny s p rs = true ↔ ∃ r ∈ rs, r.contains s p = true := by
  induction rs with
  | nil => simp [containsAny]
  | cons r rs ih => simp [containsAny, ih]

lemma isBlockBoundedAll_eq_true {rs : List (Region σ)} :
    isBlockBoundedAll s rs = true ↔ ∀ r ∈ rs, r.isBlockBounded s = true := by
  induction rs with
  | nil => simp [isBlockBoundedAll]
  | cons r rs ih => simp [isBlockBoundedAll, ih]

lemma isEmptyAll_eq_true {rs : List (Region σ)} :
    isEmptyAll s rs = true ↔ ∀ r ∈ rs, r.isEmpty s = true := by
  induction rs with
  | nil => simp [isEmptyAll]
  | cons r rs ih => simp [isEmptyAll, ih]

lemma isStaticAll_eq_true {rs : List (Region σ)} :
    isStaticAll rs = true ↔ ∀ r ∈ rs, r.isStatic = true := by
  induction rs with
  | nil => simp [isStaticAll]
  | cons r rs ih => simp [isStaticAll, ih]

lemma forall_mem_pair {P : Region σ → Prop} {r r' : Region σ} :
    (∀ c ∈ [r, r'], P c) ↔ P r ∧ P r' := by
  simp

lemma toStaticAll_eq_map (s : σ) (rs : List (Region σ)) :
    toStaticAll s rs = rs.map (toStatic s) := by
  induction rs with
  | nil => simp [toStaticAll]
  | cons r rs ih => simp [toStaticAll, ih]

lemma boundsFrom_eq_foldl (s : σ) (acc : Bounds) (rs : List (Region σ)) :
    boundsFrom s acc rs = (rs.map (bounds s)).foldl Bounds.union acc := by
  induction rs generalizing acc with
  | nil => simp [boundsFrom]
  | cons r rs ih => simp [boundsFrom, ih]

/-! ## The parts of a union -/

lemma containsBlock_union {id : Option UnionId} {b : BlockPos} :
    containsBlock s b (.union id children) = true ↔
      ∃ r ∈ children, r.containsBlock s b = true := by
  simp only [containsBlock, contains, containsAny_eq_true]

lemma isBlockBounded_union {id : Option UnionId} :
    isBlockBounded s (.union id children) = true ↔
      ∀ r ∈ children, r.isBlockBounded s = true := by
  simp only [isBlockBounded, isBlockBoundedAll_eq_true]

lemma bounds_union (s : σ) (id : Option UnionId) (children : List (Region σ)) :
    bounds s (.union id children) = (children.map (bounds s)).foldl Bounds.union .empty := by
  rw [bounds, boundsFrom_eq_foldl]

end Region

/-! ## Bounds of a union -/

namespace Bounds

variable {acc : Bounds} {bs : List Bounds}

/-- What two boxes hand on to their union, boxes hand on to a union of many. -/
lemma foldl_union_induction {P : Bounds → Prop}
    (hunion : ∀ {a b : Bounds}, P a → P b → P (a.union b)) (hacc : P acc)
    (hbs : ∀ b ∈ bs, P b) : P (bs.foldl union acc) := by
  induction bs generalizing acc with
  | nil => exact hacc
  | cons b bs ih =>
    rw [List.forall_mem_cons] at hbs
    exact ih (hunion hacc hbs.1) hbs.2

/-- The union of boxes has the points of all of them. -/
lemma contains_foldl_union {p : Vec3} (hacc : acc.IsClean) (hbs : ∀ b ∈ bs, b.IsClean)
    (hp : acc.contains p = true ∨ ∃ b ∈ bs, b.contains p = true) :
    (bs.foldl union acc).contains p = true := by
  induction bs generalizing acc with
  | nil => simpa using hp
  | cons b bs ih =>
    rw [List.forall_mem_cons] at hbs
    refine ih (hacc.union hbs.1) hbs.2 ?_
    obtain hp | ⟨c, hc, hp⟩ := hp
    · exact .inl (contains_union hacc hbs.1 (.inl hp))
    rcases List.mem_cons.1 hc with rfl | hc
    · exact .inl (contains_union hacc hbs.1 (.inr hp))
    · exact .inr ⟨c, hc, hp⟩

end Bounds

namespace Region

variable {σ : Type} {s : σ} {r : Region σ} {children : List (Region σ)}

/-- **The bounds of a region that can be listed can be listed.** -/
theorem isBlockBounded_bounds (h : r.isBlockBounded s = true) :
    (r.bounds s).isBlockBounded = true := by
  induction r with
  | empty => exact Bounds.isBlockBounded_of_isEmpty Bounds.isEmpty_empty
  | everywhere => cases h
  | cuboid c => exact h
  | sphere b => exact h
  | cylinder c => exact h
  | union id children ih =>
    rw [isBlockBounded_union] at h
    rw [bounds_union]
    refine Bounds.foldl_union_induction (P := fun b => b.isBlockBounded = true)
      Bounds.isBlockBounded_union (Bounds.isBlockBounded_of_isEmpty Bounds.isEmpty_empty) ?_
    rw [List.forall_mem_map]
    exact fun r hr => ih r hr (h r hr)
  | static inner ih => exact ih h
  | dynamic resolve ih => exact ih s h

/-- The bounds of a region that can be listed have no NaN that matters. -/
lemma isClean_bounds (h : r.isBlockBounded s = true) : (r.bounds s).IsClean :=
  Bounds.isClean_of_isBlockBounded (isBlockBounded_bounds h)

/-- The bounds of a union hold the points that the bounds of a child hold. -/
lemma contains_bounds_union {id : Option UnionId} {p : Vec3}
    (h : ∀ r ∈ children, (r.bounds s).IsClean) (hr : r ∈ children)
    (hp : (r.bounds s).contains p = true) :
    (bounds s (.union id children)).contains p = true := by
  rw [bounds_union]
  exact Bounds.contains_foldl_union (.inl Bounds.isEmpty_empty) (List.forall_mem_map.2 h)
    (.inr ⟨_, List.mem_map_of_mem hr, hp⟩)

/-! ## Frozen regions -/

/-- A frozen region has the points of the region. -/
theorem contains_toStatic (s : σ) (p : Vec3) (r : Region σ) :
    (r.toStatic s).contains s p = r.contains s p := by
  induction r with
  | union id children ih =>
    rw [toStatic]
    split_ifs with hstatic
    · rfl
    · rw [Bool.eq_iff_iff, toStaticAll_eq_map]
      simp only [contains, containsAny_eq_true, List.mem_map, exists_exists_and_eq_and]
      exact exists_congr fun r => and_congr_right fun hr => by rw [ih r hr]
  | dynamic resolve ih => exact ih s
  | _ => rfl

/-- A frozen region has the bounds of the region. -/
theorem bounds_toStatic (s : σ) (r : Region σ) : (r.toStatic s).bounds s = r.bounds s := by
  induction r with
  | union id children ih =>
    rw [toStatic]
    split_ifs with hstatic
    · rfl
    · rw [bounds_union, bounds_union, toStaticAll_eq_map, List.map_map]
      congr 1
      exact List.map_congr_left ih
  | dynamic resolve ih => exact ih s
  | _ => rfl

/-- A frozen region counts as empty if the region does. -/
theorem isEmpty_toStatic (s : σ) (r : Region σ) : (r.toStatic s).isEmpty s = r.isEmpty s := by
  induction r with
  | union id children ih =>
    rw [toStatic]
    split_ifs with hstatic
    · rfl
    · rw [Bool.eq_iff_iff, toStaticAll_eq_map]
      simp only [isEmpty, isEmptyAll_eq_true, List.forall_mem_map]
      exact forall₂_congr fun r hr => by rw [ih r hr]
  | dynamic resolve ih => exact ih s
  | _ => rfl

/-- The blocks of a frozen region can be listed if those of the region can. -/
theorem isBlockBounded_toStatic (s : σ) (r : Region σ) :
    (r.toStatic s).isBlockBounded s = r.isBlockBounded s := by
  induction r with
  | union id children ih =>
    rw [toStatic]
    split_ifs with hstatic
    · rfl
    · rw [Bool.eq_iff_iff, toStaticAll_eq_map, isBlockBounded_union, isBlockBounded_union,
        List.forall_mem_map]
      exact forall₂_congr fun r hr => by rw [ih r hr]
  | dynamic resolve ih => exact ih s
  | _ => rfl

/-- A static region is its own frozen form. -/
theorem toStatic_of_isStatic (h : r.isStatic = true) (s : σ) : r.toStatic s = r := by
  cases r with
  | union id children =>
    have hchildren : isStaticAll children = true := h
    rw [toStatic, if_pos hchildren]
  | dynamic resolve => cases h
  | _ => rfl

/-- A frozen region is static. -/
theorem isStatic_toStatic (s : σ) (r : Region σ) : (r.toStatic s).isStatic = true := by
  induction r with
  | union id children ih =>
    rw [toStatic]
    split_ifs with hstatic
    · exact hstatic
    · rw [isStatic, toStaticAll_eq_map, isStaticAll_eq_true]
      exact List.forall_mem_map.2 ih
  | _ => rfl

end Region
end RegionRules
