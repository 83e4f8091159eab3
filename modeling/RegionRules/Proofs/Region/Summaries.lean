import RegionRules.Proofs.Region.Anchors
import RegionRules.Proofs.Region.Enumeration

/-!
# Bounds and emptiness

The bounds of a region should hold all its points, and the region should count as empty just when it
has none.  This module settles when they do, for regions whose numbers are finite.

Unions do their part again, so it comes down to the shapes, and there to the anchor.  A shape tells
rightly whether it is empty unless it is *inside out*, with a negative radius and points all the
same (`tellsEmpty_iff`).  And a shape with a point beyond some face of its bounds has the first
number beyond that face, straight from the anchor, so seven probes are enough to find out whether
the bounds hold every point (`isEnclosed_iff`).

Not every shape passes.  Rounding may take a face inwards and the squares of small or large
differences to zero or infinity, and then there are points beyond the face.
-/

set_option autoImplicit false

namespace RegionRules
namespace Region

variable {σ : Type} {s : σ} {r : Region σ}

/-! ## Emptiness -/

/-- The region counts as empty just when it has no point. -/
def TellsEmpty (s : σ) (r : Region σ) : Prop :=
  r.isEmpty s = true ↔ ∀ p : Vec3, p.IsFinite → r.contains s p = false

/-- The radius is negative, and the region has points all the same. -/
def IsInsideOut : Region σ → Prop
  | .sphere b => b.radius < .zero false
  | .cylinder c => c.radius < .zero false ∧ ¬ c.height < .zero false
  | _ => False

/-- A shape has a point only if it has its anchor. -/
lemma forall_contains_eq_false_iff (hr : r.IsFiniteShape) :
    (∀ p : Vec3, p.IsFinite → r.contains s p = false) ↔ ¬ r.contains s r.anchor = true := by
  have hanchor := hr.isFinite_anchor
  constructor
  · intro h hcontains
    rw [h _ hanchor] at hcontains
    cases hcontains
  · intro h p hp
    by_contra hcontains
    rw [Bool.not_eq_false] at hcontains
    exact h (contains_of_between hr hp hanchor (Vec3.between_left _ _) hcontains)

/-- **A shape tells whether it is empty unless it is inside out.** -/
theorem tellsEmpty_iff (hr : r.IsFiniteShape) : r.TellsEmpty s ↔ ¬ r.IsInsideOut := by
  rw [TellsEmpty, forall_contains_eq_false_iff hr]
  cases hr with
  | cuboid c hlower hupper =>
    refine iff_of_true ?_ not_false
    rw [contains, anchor, Cuboid.contains_lower_iff hlower hupper, not_not]
    rfl
  | sphere b hcenter hradius =>
    have hcontains := Sphere.contains_center hcenter hradius
    rw [isEmpty, Sphere.isEmpty_bounds_iff, contains, anchor, hcontains, IsInsideOut]
    tauto
  | cylinder c hbase hradius =>
    rw [isEmpty, Cylinder.isEmpty_bounds_iff, contains, anchor,
      Cylinder.contains_base_iff hbase hradius, IsInsideOut]
    tauto

/-! ## Bounds -/

/-- The bounds hold every point of the region. -/
def IsEnclosed (s : σ) (r : Region σ) : Prop :=
  ∀ p : Vec3, p.IsFinite → r.contains s p = true → (r.bounds s).contains p = true

/-- The anchor of a shape, and straight from it, beyond each face of the bounds, the first number
on that axis. -/
def probes (s : σ) (r : Region σ) : List Vec3 :=
  let beyond (i : Axis) : List Vec3 :=
    [r.anchor.put i (.ofPlace (((r.bounds s).lower.coord i).place - 1)),
      r.anchor.put i (.ofPlace (((r.bounds s).upper.coord i).place + 1))]
  r.anchor :: (beyond .x ++ beyond .y ++ beyond .z)

/-- No probe is a point of the shape and beyond its bounds. -/
def IsSnug (s : σ) (r : Region σ) : Prop :=
  ∀ q ∈ r.probes s, q.IsFinite → r.contains s q = true → (r.bounds s).contains q = true

instance (s : σ) : DecidablePred (IsSnug s) := fun r =>
  inferInstanceAs (Decidable (∀ q ∈ r.probes s,
    q.IsFinite → r.contains s q = true → (r.bounds s).contains q = true))

lemma mem_probes_lower (s : σ) (r : Region σ) (i : Axis) :
    r.anchor.put i (.ofPlace (((r.bounds s).lower.coord i).place - 1)) ∈ r.probes s := by
  cases i <;> simp [probes]

lemma mem_probes_upper (s : σ) (r : Region σ) (i : Axis) :
    r.anchor.put i (.ofPlace (((r.bounds s).upper.coord i).place + 1)) ∈ r.probes s := by
  cases i <;> simp [probes]

/-- **Seven probes find out whether the bounds of a shape hold all its points.** -/
theorem isEnclosed_iff (hr : r.IsFiniteShape) : r.IsEnclosed s ↔ r.IsSnug s := by
  refine ⟨fun h q _ => h q, fun hsnug p hp hcontains => ?_⟩
  have hanchor := hr.isFinite_anchor
  have hinside := hsnug _ List.mem_cons_self hanchor
    (contains_of_between hr hp hanchor (Vec3.between_left _ _) hcontains)
  rw [Bounds.contains_iff] at hinside ⊢
  -- A probe between the anchor and the point is a point too, hence within the bounds.
  have hprobe {i : Axis} {place : ℤ}
      (hmem : r.anchor.put i (.ofPlace place) ∈ r.probes s)
      (hplace : place ∈ Set.uIcc (r.anchor.coord i).place (p.coord i).place) :
      ((r.bounds s).lower.coord i).place ≤ place ∧ place ≤ ((r.bounds s).upper.coord i).place := by
    have hlow := (Binary64.isFinite_iff.1 (hanchor i)).2
    have hhigh := (Binary64.isFinite_iff.1 (hp i)).2
    have hrank : place.natAbs < Binary64.infRank := by
      rcases Set.mem_uIcc.1 hplace with h | h <;> omega
    have hfinite := Vec3.isFinite_put hanchor (Binary64.isFinite_ofPlace hrank) i
    have hbetween : Vec3.Between r.anchor (r.anchor.put i (.ofPlace place)) p :=
      Vec3.between_put (by rwa [Binary64.Between, Binary64.place_ofPlace hrank.le])
    have hbounds := Bounds.contains_iff.1 (hsnug _ hmem hfinite
      (contains_of_between hr hp hfinite hbetween hcontains)) i
    rw [Vec3.coord_put, if_pos rfl, Binary64.le_iff, Binary64.le_iff,
      Binary64.place_ofPlace hrank.le] at hbounds
    exact ⟨hbounds.1.2.2, hbounds.2.2.2⟩
  intro i
  obtain ⟨hlower, hupper⟩ := hinside i
  rw [Binary64.le_iff] at hlower hupper
  refine ⟨Binary64.le_iff.2 ⟨hlower.1, (hp i).ne_nan, ?_⟩,
    Binary64.le_iff.2 ⟨(hp i).ne_nan, hupper.2.1, ?_⟩⟩
  · by_contra hbelow
    have := (hprobe (mem_probes_lower s r i) (Set.mem_uIcc.2 (.inr (by omega)))).1
    omega
  · by_contra habove
    have := (hprobe (mem_probes_upper s r i) (Set.mem_uIcc.2 (.inl (by omega)))).2
    omega

/-! ## Regions built from shapes -/

section BuiltFrom

variable {shapes : Region σ → Prop} {memo : Memo} (hshapes : ∀ r, shapes r → r.IsFiniteShape)

include hshapes

lemma BuiltFrom.isClean_bounds (h : r.BuiltFrom shapes memo s) : (r.bounds s).IsClean := by
  induction h with
  | empty => exact .inl Bounds.isEmpty_empty
  | everywhere =>
    refine .inr fun i => ?_
    rw [bounds, Bounds.unbounded, Vec3.coord_splat, Vec3.coord_splat]
    exact ⟨Binary64.num_ne_nan, Binary64.num_ne_nan⟩
  | shape r hr => exact isClean_bounds_of_isFiniteShape (hshapes r hr)
  | union id children _ _ ih =>
    rw [bounds_union]
    exact Bounds.foldl_union_induction Bounds.IsClean.union (.inl Bounds.isEmpty_empty)
      (List.forall_mem_map.2 ih)
  | static inner _ ih => exact ih
  | dynamic resolve _ ih => exact ih

/-- Bounds hold all points if they do for the shapes. -/
lemma BuiltFrom.isEnclosed (henclosed : ∀ r, shapes r → r.IsEnclosed s)
    (h : r.BuiltFrom shapes memo s) : r.IsEnclosed s := by
  induction h with
  | empty => intro p hp hcontains; cases hcontains
  | everywhere =>
    intro p hp _
    refine Bounds.contains_iff.2 fun i => ?_
    have hrank := (Binary64.isFinite_iff.1 (hp i)).2
    rw [bounds, Bounds.unbounded, Vec3.coord_splat, Vec3.coord_splat]
    refine ⟨Binary64.le_iff.2 ⟨Binary64.num_ne_nan, (hp i).ne_nan, ?_⟩,
      Binary64.le_iff.2 ⟨(hp i).ne_nan, Binary64.num_ne_nan, ?_⟩⟩
    · change -(Binary64.infRank : ℤ) ≤ _
      omega
    · change _ ≤ (Binary64.infRank : ℤ)
      omega
  | shape r hr => exact henclosed r hr
  | union id children _ hchildren ih =>
    intro p hp hcontains
    obtain ⟨r, hr, hrp⟩ := containsAny_eq_true.1 hcontains
    exact contains_bounds_union (fun r hr => (hchildren r hr).isClean_bounds hshapes) hr
      (ih r hr p hp hrp)
  | static inner _ ih => exact ih
  | dynamic resolve _ ih => exact ih

omit hshapes in
/-- A region tells whether it is empty if the shapes do. -/
lemma BuiltFrom.tellsEmpty (htells : ∀ r, shapes r → r.TellsEmpty s)
    (h : r.BuiltFrom shapes memo s) : r.TellsEmpty s := by
  induction h with
  | empty => exact iff_of_true rfl fun _ _ => rfl
  | everywhere =>
    refine iff_of_false Bool.false_ne_true fun h => ?_
    exact Bool.false_ne_true (h (.splat .half) (by decide)).symm
  | shape r hr => exact htells r hr
  | union id children _ _ ih =>
    have hempty : isEmpty s (.union id children) = true ↔ ∀ r ∈ children, r.isEmpty s = true :=
      isEmptyAll_eq_true
    rw [TellsEmpty, hempty]
    constructor
    · intro h p hp
      by_contra hcontains
      rw [Bool.not_eq_false] at hcontains
      obtain ⟨r, hr, hrp⟩ := containsAny_eq_true.1 hcontains
      exact Bool.false_ne_true (((ih r hr).1 (h r hr) p hp).symm.trans hrp)
    · intro h r hr
      refine (ih r hr).2 fun p hp => ?_
      by_contra hcontains
      rw [Bool.not_eq_false] at hcontains
      exact Bool.false_ne_true ((h p hp).symm.trans (containsAny_eq_true.2 ⟨r, hr, hcontains⟩))
  | static inner _ ih => exact ih
  | dynamic resolve _ ih => exact ih

end BuiltFrom

/-- **Bounds and emptiness are as good as the shapes.**  Take a class of shapes given by finite
numbers.  The bounds of all regions built from it hold every finite point of the region if, and only
if, they do at the seven probes of every shape of the class.  All regions built from it count as
empty just when they have no finite point if, and only if, no shape of the class is inside out. -/
theorem summaries_builtFrom_iff (s : σ) (shapes : Region σ → Prop)
    (hshapes : ∀ r, shapes r → r.IsFiniteShape) :
    ((∀ r, shapes r → r.IsSnug s) ↔ ∀ r : Region σ, r.BuiltFrom shapes ∅ s → r.IsEnclosed s) ∧
      ((∀ r, shapes r → ¬ r.IsInsideOut) ↔
        ∀ r : Region σ, r.BuiltFrom shapes ∅ s → r.TellsEmpty s) := by
  refine ⟨⟨fun hsnug r hr => ?_, fun h r hr => ?_⟩, fun hproper r hr => ?_, fun h r hr => ?_⟩
  · exact hr.isEnclosed hshapes fun r hr => (isEnclosed_iff (hshapes r hr)).2 (hsnug r hr)
  · exact (isEnclosed_iff (hshapes r hr)).1 (h r (.shape r hr))
  · exact hr.tellsEmpty fun r hr => (tellsEmpty_iff (hshapes r hr)).2 (hproper r hr)
  · exact (tellsEmpty_iff (hshapes r hr)).1 (h r (.shape r hr))

/-- The ball of radius one around the origin. -/
def unitBall : Region Bool := .sphere ⟨.splat (.zero false), .one⟩

/-- A cylinder on the origin, one wide and two high. -/
def drum : Region Bool := .cylinder ⟨.splat (.zero false), .half, .ofInt 2⟩

/-- The ball, with the drum on top while the state says so. -/
theorem ball_drum_summaries :
    let shapes : Region Bool → Prop := fun r => r = unitBall ∨ r = drum
    let piled : Region Bool := .union none
      [.static unitBall, .dynamic fun raised => if raised then drum else .empty]
    (∀ r, shapes r → r.IsFiniteShape) ∧ (∀ r, shapes r → r.IsSnug true ∧ ¬ r.IsInsideOut) ∧
      piled.IsEnclosed true ∧ piled.TellsEmpty true := by
  intro shapes piled
  have hshapes : ∀ r, shapes r → r.IsFiniteShape := by
    rintro r (rfl | rfl)
    · exact .sphere _ (by decide +kernel) (by decide +kernel)
    · exact .cylinder _ (by decide +kernel) (by decide +kernel) (by decide +kernel)
  have hfits : ∀ r, shapes r → r.IsSnug true ∧ ¬ r.IsInsideOut := by
    rintro r (rfl | rfl)
    · refine ⟨by decide +kernel, fun h => ?_⟩
      exact Bool.false_ne_true h
    · refine ⟨by decide +kernel, fun h => ?_⟩
      exact Bool.false_ne_true h.1
  have hbuilt : piled.BuiltFrom shapes ∅ true := by
    refine .union none _ (Memo.soundFor_of_fresh rfl) (forall_mem_pair.2 ⟨?_, ?_⟩)
    · exact .static _ (.shape _ (.inl rfl))
    · exact .dynamic _ (.shape _ (.inr rfl))
  obtain ⟨henclosed, htells⟩ := summaries_builtFrom_iff true shapes hshapes
  exact ⟨hshapes, hfits, henclosed.1 (fun r hr => (hfits r hr).1) piled hbuilt,
    htells.1 (fun r hr => (hfits r hr).2) piled hbuilt⟩

/-- A ball of radius `-1` has its centre, yet its bounds and the region count as empty.  The ball of
radius one around `-1` has a point just right of its bounds: the distance is rounded to one. -/
theorem invertedBall_shiftedBall_summaries :
    let origin : Vec3 := .splat (.zero false)
    let inverted : Region Unit := .sphere ⟨origin, .ofInt (-1)⟩
    let shifted : Region Unit := .sphere ⟨origin.put .x (.ofInt (-1)), .one⟩
    let dust : Vec3 := origin.put .x (.num false 0x3c30000000000000 (by decide))
    (inverted.contains () origin = true ∧ inverted.isEmpty () = true ∧
      (inverted.bounds ()).contains origin = false) ∧
      shifted.contains () dust = true ∧ (shifted.bounds ()).contains dust = false ∧
      ¬ inverted.IsEnclosed () ∧ ¬ inverted.TellsEmpty () ∧ ¬ shifted.IsEnclosed () := by
  intro origin inverted shifted dust
  have hcenter : inverted.contains () origin = true := by decide +kernel
  have hempty : inverted.isEmpty () = true := by decide +kernel
  have hbeyond : (inverted.bounds ()).contains origin = false := by decide +kernel
  have hdust : shifted.contains () dust = true := by decide +kernel
  have hbeyond_dust : (shifted.bounds ()).contains dust = false := by decide +kernel
  refine ⟨⟨hcenter, hempty, hbeyond⟩, hdust, hbeyond_dust, fun h => ?_, fun h => ?_, fun h => ?_⟩
  · exact Bool.false_ne_true (hbeyond.symm.trans (h origin (by decide +kernel) hcenter))
  · exact Bool.false_ne_true ((h.1 hempty origin (by decide +kernel)).symm.trans hcenter)
  · exact Bool.false_ne_true (hbeyond_dust.symm.trans (h dust (by decide +kernel) hdust))

end Region
end RegionRules
