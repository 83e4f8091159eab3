import RegionRules.Proofs.Region.Trees
import RegionRules.Region.Strategy

/-!
# Frozen and honest regions

A region is *frozen* if it has no dynamic part at any depth.  It has the same points and the same
bounds in every state.  A region is *honest* if whatever it marks as `static` is frozen.  An honest
region that counts as static is frozen (`IsHonest.isFrozen`), and freezing an honest region gives a
frozen one (`IsHonest.isFrozen_toStatic`).

What a union selects as its strategy depends on its children up to the ids of the unions among them
(`select_bare`), and not on the state if they are honest (`select_congr`): a union that has dynamic
children is scanned in every state.
-/

set_option autoImplicit false

namespace RegionRules
namespace Region

variable {σ : Type} {s t : σ} {r : Region σ} {children : List (Region σ)}

/-! ## Nodes of a region -/

/-- The first region is right below the second: a child, what a mark marks, or what a dynamic part
resolves to in some state. -/
inductive IsPart : Region σ → Region σ → Prop
  | child {r : Region σ} {children : List (Region σ)} (id : Option UnionId) (hr : r ∈ children) :
      IsPart r (.union id children)
  | marked (inner : Region σ) : IsPart inner (.static inner)
  | resolved (resolve : σ → Region σ) (t : σ) : IsPart (resolve t) (.dynamic resolve)

/-- The property holds of the region and of all regions below it. -/
inductive Throughout (P : Region σ → Prop) : Region σ → Prop
  | intro (r : Region σ) (here : P r) (part : ∀ r', IsPart r' r → Throughout P r') :
      Throughout P r

namespace Throughout

variable {P : Region σ → Prop}

lemma here (h : r.Throughout P) : P r := by
  cases h with
  | intro _ here _ => exact here

lemma part {r' : Region σ} (h : r.Throughout P) (hpart : IsPart r' r) : r'.Throughout P := by
  cases h with
  | intro _ _ part => exact part r' hpart

lemma mono {Q : Region σ → Prop} (hPQ : ∀ r, P r → Q r) (h : r.Throughout P) :
    r.Throughout Q := by
  induction h with
  | intro r here _ ih => exact .intro r (hPQ r here) ih

/-- What holds throughout a region holds of every region below it, at any depth. -/
lemma here_of_below {r' : Region σ} (h : r.Throughout P)
    (hbelow : Relation.ReflTransGen IsPart r' r) : P r' := by
  induction hbelow with
  | refl => exact h.here
  | tail _ hpart ih => exact ih (h.part hpart)

lemma child {id : Option UnionId} (h : Throughout P (.union id children)) (hr : r ∈ children) :
    r.Throughout P := h.part (.child id hr)

lemma cuboid {c : Cuboid} (here : P (.cuboid c)) : Throughout P (.cuboid c) :=
  .intro _ here (by rintro _ ⟨⟩)

lemma union {id : Option UnionId} (here : P (.union id children))
    (h : ∀ r ∈ children, r.Throughout P) : Throughout P (.union id children) := by
  refine .intro _ here fun r' hpart => ?_
  cases hpart with
  | child _ hr => exact h r' hr

lemma static {inner : Region σ} (here : P (.static inner)) (h : inner.Throughout P) :
    Throughout P (.static inner) := by
  refine .intro _ here fun r' hpart => ?_
  cases hpart with
  | marked => exact h

lemma dynamic {resolve : σ → Region σ} (here : P (.dynamic resolve))
    (h : ∀ t, (resolve t).Throughout P) : Throughout P (.dynamic resolve) := by
  refine .intro _ here fun r' hpart => ?_
  cases hpart with
  | resolved _ t => exact h t

lemma of_forall (h : ∀ r, P r) (r : Region σ) : r.Throughout P := by
  induction r with
  | union id children ih => exact .union (h _) ih
  | static inner ih => exact .static (h _) ih
  | dynamic resolve ih => exact .dynamic (h _) ih
  | _ => exact .intro _ (h _) (by rintro _ ⟨⟩)

lemma of_below (h : ∀ r', Relation.ReflTransGen IsPart r' r → P r') : r.Throughout P := by
  have hall : r.Throughout fun _ => True := of_forall (fun _ => trivial) r
  induction hall with
  | intro r _ _ ih =>
    exact .intro r (h r .refl) fun r' hpart => ih r' hpart fun _ hbelow => h _ (hbelow.tail hpart)

end Throughout

/-! ## Frozen regions -/

/-- The region has no dynamic part at any depth. -/
def IsFrozen : Region σ → Prop := Throughout fun r => ∀ resolve, r ≠ .dynamic resolve

namespace IsFrozen

/-- **A frozen region has the same points in every state.** -/
theorem contains_congr (h : r.IsFrozen) (s t : σ) (p : Vec3) :
    r.contains s p = r.contains t p := by
  induction r with
  | union id children ih =>
    rw [Bool.eq_iff_iff]
    simp only [contains, containsAny_eq_true]
    exact exists_congr fun r => and_congr_right fun hr => by rw [ih r hr (h.child hr)]
  | static inner ih => exact ih (h.part (.marked inner))
  | dynamic resolve ih => exact absurd rfl (h.here resolve)
  | _ => rfl

/-- A frozen region has the same bounds in every state. -/
theorem bounds_congr (h : r.IsFrozen) (s t : σ) : r.bounds s = r.bounds t := by
  induction r with
  | union id children ih =>
    rw [bounds_union, bounds_union]
    exact congrArg _ (List.map_congr_left fun r hr => ih r hr (h.child hr))
  | static inner ih => exact ih (h.part (.marked inner))
  | dynamic resolve ih => exact absurd rfl (h.here resolve)
  | _ => rfl

theorem isEmpty_congr (h : r.IsFrozen) (s t : σ) : r.isEmpty s = r.isEmpty t := by
  induction r with
  | union id children ih =>
    rw [Bool.eq_iff_iff]
    simp only [isEmpty, isEmptyAll_eq_true]
    exact forall₂_congr fun r hr => by rw [ih r hr (h.child hr)]
  | static inner ih => exact ih (h.part (.marked inner))
  | dynamic resolve ih => exact absurd rfl (h.here resolve)
  | _ => rfl

theorem isBlockBounded_congr (h : r.IsFrozen) (s t : σ) :
    r.isBlockBounded s = r.isBlockBounded t := by
  induction r with
  | union id children ih =>
    rw [Bool.eq_iff_iff, isBlockBounded_union, isBlockBounded_union]
    exact forall₂_congr fun r hr => by rw [ih r hr (h.child hr)]
  | static inner ih => exact ih (h.part (.marked inner))
  | dynamic resolve ih => exact absurd rfl (h.here resolve)
  | _ => rfl

end IsFrozen

/-! ## Honest regions -/

/-- Everything that the region marks as static, at any depth, is frozen. -/
def IsHonest : Region σ → Prop := Throughout fun r => ∀ inner, r = .static inner → inner.IsFrozen

namespace IsHonest

/-- **An honest region that counts as static is frozen.** -/
theorem isFrozen (h : r.IsHonest) (hstatic : r.isStatic = true) : r.IsFrozen := by
  induction r with
  | union id children ih =>
    have hchildren := isStaticAll_eq_true.1 hstatic
    exact .union (by simp) fun r hr => ih r hr (h.child hr) (hchildren r hr)
  | static inner => exact .static (by simp) (h.here inner rfl)
  | dynamic resolve => cases hstatic
  | _ => exact .intro _ (by simp) (by rintro _ ⟨⟩)

/-- **Freezing an honest region leaves nothing dynamic.** -/
theorem isFrozen_toStatic (h : r.IsHonest) (s : σ) : (r.toStatic s).IsFrozen := by
  induction r with
  | union id children ih =>
    rw [toStatic]
    split_ifs with hstatic
    · exact h.isFrozen hstatic
    · rw [toStaticAll_eq_map]
      exact .union (by simp) (List.forall_mem_map.2 fun r hr => ih r hr (h.child hr))
  | static inner => exact h.isFrozen rfl
  | dynamic resolve ih => exact .static (by simp) (ih s (h.part (.resolved resolve s)))
  | _ => exact h.isFrozen rfl

end IsHonest

/-! ## Strategies -/

/-- Honest children make their union select the same strategy in every state. -/
theorem select_congr (h : ∀ r ∈ children, r.IsHonest) (s t : σ) :
    Strategy.select s children = Strategy.select t children := by
  unfold Strategy.select
  split_ifs with hstatic
  · have hfrozen : ∀ r ∈ children, r.IsFrozen := fun r hr =>
      (h r hr).isFrozen (isStaticAll_eq_true.1 hstatic r hr)
    have hbounds : children.map (·.bounds s) = children.map (·.bounds t) :=
      List.map_congr_left fun r hr => (hfrozen r hr).bounds_congr s t
    rw [boundsFrom_eq_foldl, boundsFrom_eq_foldl]
    exact congrArg (fun bs => Strategy.ofBounds bs (bs.foldl Bounds.union .empty)) hbounds
  · rfl

mutual

/-- The region without the ids of its unions. -/
def bare : Region σ → Region σ
  | .union _ children => .union none (bareAll children)
  | .static inner => .static (bare inner)
  | .dynamic resolve => .dynamic fun t => bare (resolve t)
  | .empty => .empty
  | .everywhere => .everywhere
  | .cuboid c => .cuboid c
  | .sphere b => .sphere b
  | .cylinder c => .cylinder c

/-- Every region of the list without the ids of its unions. -/
def bareAll : List (Region σ) → List (Region σ)
  | [] => []
  | r :: rs => bare r :: bareAll rs

end

lemma bareAll_eq_map (rs : List (Region σ)) : bareAll rs = rs.map bare := by
  induction rs with
  | nil => rfl
  | cons r rs ih => rw [bareAll, ih, List.map_cons]

lemma bare_union (id : Option UnionId) (children : List (Region σ)) :
    bare (.union id children) = .union none (children.map bare) := by
  rw [bare, bareAll_eq_map]

/-- What does not depend on ids holds throughout a region or throughout its rebuilt form. -/
lemma throughout_bare_iff {P : Region σ → Prop} (hP : ∀ r : Region σ, P r.bare ↔ P r)
    (r : Region σ) : r.bare.Throughout P ↔ r.Throughout P := by
  induction r with
  | union id children ih =>
    have here := hP (.union id children)
    rw [bare_union] at here ⊢
    constructor
    · exact fun h => .union (here.1 h.here) fun r hr =>
        (ih r hr).1 (h.child (List.mem_map_of_mem hr))
    · exact fun h => .union (here.2 h.here)
        (List.forall_mem_map.2 fun r hr => (ih r hr).2 (h.child hr))
  | static inner ih =>
    exact ⟨fun h => .static ((hP _).1 h.here) (ih.1 (h.part (.marked _))),
      fun h => .static ((hP _).2 h.here) (ih.2 (h.part (.marked _)))⟩
  | dynamic resolve ih =>
    have here := hP (.dynamic resolve)
    rw [bare] at here ⊢
    exact ⟨fun h => .dynamic (here.1 h.here) fun t =>
        (ih t).1 (h.part (.resolved (fun t => (resolve t).bare) t)),
      fun h => .dynamic (here.2 h.here) fun t => (ih t).2 (h.part (.resolved resolve t))⟩
  | _ => exact Iff.rfl

lemma bounds_bare (s : σ) (r : Region σ) : r.bare.bounds s = r.bounds s := by
  induction r with
  | union id children ih =>
    rw [bare_union, bounds_union, bounds_union, List.map_map]
    exact congrArg _ (List.map_congr_left ih)
  | static inner ih => exact ih
  | dynamic resolve ih => exact ih s
  | _ => rfl

lemma isStatic_bare (r : Region σ) : r.bare.isStatic = r.isStatic := by
  induction r with
  | union id children ih =>
    rw [Bool.eq_iff_iff, bare_union, isStatic, isStatic, isStaticAll_eq_true,
      isStaticAll_eq_true, List.forall_mem_map]
    exact forall₂_congr fun r hr => by rw [ih r hr]
  | _ => rfl

lemma isStaticAll_bare (children : List (Region σ)) :
    isStaticAll (children.map bare) = isStaticAll children := by
  rw [Bool.eq_iff_iff, isStaticAll_eq_true, isStaticAll_eq_true, List.forall_mem_map]
  simp only [isStatic_bare]

lemma containsBlock_bare (s : σ) (b : BlockPos) (r : Region σ) :
    r.bare.containsBlock s b = r.containsBlock s b := by
  induction r with
  | union id children ih =>
    rw [Bool.eq_iff_iff, bare_union, containsBlock_union, containsBlock_union]
    simp only [List.mem_map, exists_exists_and_eq_and]
    exact exists_congr fun r => and_congr_right fun hr => by rw [ih r hr]
  | static inner ih => exact ih
  | dynamic resolve ih => exact ih s
  | _ => rfl

lemma isBlockBounded_bare (s : σ) (r : Region σ) :
    r.bare.isBlockBounded s = r.isBlockBounded s := by
  induction r with
  | union id children ih =>
    rw [Bool.eq_iff_iff, bare_union, isBlockBounded_union, isBlockBounded_union,
      List.forall_mem_map]
    exact forall₂_congr fun r hr => by rw [ih r hr]
  | static inner ih => exact ih
  | dynamic resolve ih => exact ih s
  | _ => rfl

lemma bare_bare (r : Region σ) : r.bare.bare = r.bare := by
  induction r with
  | union id children ih =>
    rw [bare_union, bare_union, List.map_map]
    exact congrArg _ (List.map_congr_left ih)
  | static inner ih => exact congrArg Region.static ih
  | dynamic resolve ih => exact congrArg Region.dynamic (funext ih)
  | _ => rfl

lemma map_bare_bare (children : List (Region σ)) :
    (children.map bare).map bare = children.map bare := by
  rw [List.map_map]
  exact List.map_congr_left fun r _ => bare_bare r

/-- A rebuilt region freezes to the rebuilt frozen form. -/
lemma toStatic_bare (s : σ) (r : Region σ) : r.bare.toStatic s = (r.toStatic s).bare := by
  induction r with
  | union id children ih =>
    rw [bare_union, toStatic, toStatic, isStaticAll_bare]
    split_ifs
    · rw [bare_union]
    · rw [bare_union, toStaticAll_eq_map, toStaticAll_eq_map, List.map_map, List.map_map]
      exact congrArg _ (List.map_congr_left ih)
  | dynamic resolve ih => exact congrArg Region.static (ih s)
  | _ => rfl

/-- The ids do not matter to the choice of a strategy. -/
lemma select_bare (s : σ) (children : List (Region σ)) :
    Strategy.select s (children.map bare) = Strategy.select s children := by
  have hbounds : (children.map bare).map (·.bounds s) = children.map (·.bounds s) := by
    rw [List.map_map]
    exact List.map_congr_left fun r _ => bounds_bare s r
  rw [Strategy.select, Strategy.select, isStaticAll_bare, hbounds, boundsFrom_eq_foldl, hbounds,
    ← boundsFrom_eq_foldl]

end Region
end RegionRules
