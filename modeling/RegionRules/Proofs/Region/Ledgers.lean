import RegionRules.Proofs.Region.Memos
import RegionRules.Region.Atlas

/-!
# How ledgers come about

A ledger gives ids to unions and remembers strategies under them.  Nothing else makes ids, so the
ids in use always make sense: there is a register that has every region held so far, and what the
ledger remembers agrees with it (`Ledger.Made.exists_register`).  The register grows with each new
id, which the ledger has not given out before (`Ledger.Keeps.exists_hold`).

As long as only honest regions are listed, what is remembered therefore never shows
(`Ledger.Made.blocks_eq`).  Of other regions less is true: what an atlas remembers for a union was
selected by its children in some state (`Atlas.Used.registers`).
-/

set_option autoImplicit false

namespace RegionRules

variable {σ : Type}

/-! ## Regions made of others -/

/-- Unions with ids are found, at some depth, in the given regions; everything around them is
new. -/
def Region.IsMadeOf (known : Set (Region σ)) : Region σ → Prop :=
  Throughout fun r => ∀ i children, r = .union (some i) children →
    ∃ whole ∈ known, Relation.ReflTransGen IsPart r whole

lemma Region.IsMadeOf.isRegistered {known : Set (Region σ)} {register : Register σ} {r : Region σ}
    (hknown : ∀ whole ∈ known, whole.IsRegistered register) (h : r.IsMadeOf known) :
    r.IsRegistered register := by
  refine Throughout.mono (fun r hr i children hunion => ?_) h
  obtain ⟨whole, hwhole, hbelow⟩ := hr i children hunion
  exact (hknown whole hwhole).here_of_below hbelow i children hunion

lemma Region.isMadeOf_of_mem {known : Set (Region σ)} {r : Region σ} (h : r ∈ known) :
    r.IsMadeOf known :=
  .of_below fun _ hbelow _ _ _ => ⟨r, h, hbelow⟩

lemma Region.isMadeOf_bare (known : Set (Region σ)) (r : Region σ) : r.bare.IsMadeOf known := by
  induction r with
  | union id children ih =>
    rw [bare_union]
    exact .union (by simp) (List.forall_mem_map.2 ih)
  | static inner ih => exact .static (by simp) ih
  | dynamic resolve ih => exact .dynamic (by simp) ih
  | _ => exact .intro _ (by simp [bare]) (by rintro _ ⟨⟩)

/-- Freezing makes nothing up: a frozen form is made of what the region is made of. -/
lemma Region.IsMadeOf.toStatic {known : Set (Region σ)} {r : Region σ} (h : r.IsMadeOf known)
    (s : σ) : (r.toStatic s).IsMadeOf known := by
  induction r with
  | union id children ih =>
    rw [Region.toStatic]
    split_ifs
    · exact h
    · rw [toStaticAll_eq_map]
      exact .union (by simp) (List.forall_mem_map.2 fun r hr => ih r hr (h.child hr))
  | dynamic resolve ih => exact .static (by simp) (ih s (h.part (.resolved resolve s)))
  | _ => exact h

/-! ## Holding a region changes its ids only -/

namespace Region

lemma map_bare_holdAll {holding : Holding} {rs : List (Region σ)}
    (h : ∀ r ∈ rs, ∀ ledger, (r.hold holding ledger).1.bare = r.bare) (ledger : Ledger) :
    (holdAll holding ledger rs).1.map bare = rs.map bare := by
  induction rs generalizing ledger with
  | nil => rfl
  | cons r rs ih =>
    rw [List.forall_mem_cons] at h
    simp only [holdAll, List.map_cons, h.1, ih h.2]

lemma bare_hold (holding : Holding) (ledger : Ledger) (r : Region σ) :
    (r.hold holding ledger).1.bare = r.bare := by
  induction r generalizing holding ledger with
  | union id children ih =>
    simp only [hold, bare, bareAll_eq_map]
    rw [map_bare_holdAll fun r hr => ih r hr holding]
  | static inner ih => exact congrArg Region.static (ih .shared ledger)
  | _ => rfl

end Region

namespace Ledger

/-! ## New ids -/

/-- What the ledger remembers agrees with the register, which has no id that is yet to be given
out. -/
structure Consistent (register : Register σ) (ledger : Ledger) : Prop where
  agrees : ledger.memo.Agrees register
  unused : ∀ i, ledger.fresh ≤ i → register i = none

/-- What the ledger remembers is fit for what the register has, which has no id that is yet to be
given out. -/
structure Keeps (fit : List (Region σ) → Strategy → Prop) (register : Register σ)
    (ledger : Ledger) : Prop where
  keeps : ledger.memo.Keeps fit register
  unused : ∀ i, ledger.fresh ≤ i → register i = none

namespace Keeps

variable {fit : List (Region σ) → Strategy → Prop} {register : Register σ} {ledger : Ledger}

/-- The next id can be entered with any children, and the register has all entries still. -/
lemma exists_enter (h : ledger.Keeps fit register) (children : List (Region σ)) :
    ∃ register' : Register σ, register.Grows register' ∧
      Keeps fit register' ⟨ledger.fresh + 1, ledger.memo⟩ ∧
      register' ledger.fresh = some children := by
  have hgrows : register.Grows (Function.update register ledger.fresh (some children)) := by
    intro i children' hi
    rw [Function.update_of_ne, hi]
    rintro rfl
    rw [h.unused _ le_rfl] at hi
    cases hi
  refine ⟨_, hgrows, ⟨h.keeps.mono hgrows, fun i hi => ?_⟩, Function.update_self ..⟩
  rw [Function.update_of_ne (Nat.lt_of_succ_le hi).ne', h.unused i (Nat.le_of_succ_le hi)]

/-- The id that a union is given stands for its children. -/
lemma exists_assign (h : ledger.Keeps fit register) (holding : Holding) {id : Option UnionId}
    {children : List (Region σ)} (hid : ∀ i, id = some i → register i = some children) :
    ∃ register' : Register σ, register.Grows register' ∧
      (ledger.assign holding id).2.Keeps fit register' ∧
      ∀ i, (ledger.assign holding id).1 = some i → register' i = some children := by
  obtain ⟨register', hgrows, hkeeps, henter⟩ := h.exists_enter children
  have hfresh : ∀ i, some ledger.fresh = some i → register' i = some children := by
    intro i hi
    rwa [← Option.some_inj.1 hi]
  cases holding with
  | lent => exact ⟨register, .refl register, h, fun i hi => by cases hi⟩
  | shared =>
    cases id with
    | none => exact ⟨register', hgrows, hkeeps, hfresh⟩
    | some i => exact ⟨register, .refl register, h, hid⟩
  | owned =>
    refine ⟨register', hgrows, ?_, hfresh⟩
    rw [assign]
    cases hmemo : ledger.memo.remembered? id with
    | none => exact hkeeps
    | some strategy =>
      obtain ⟨i, rfl, hi⟩ := Option.bind_eq_some_iff.1 hmemo
      obtain ⟨remembered, hremembered, hfit⟩ := h.keeps i strategy hi
      rw [hid i rfl, Option.some_inj] at hremembered
      exact ⟨hkeeps.keeps.insert henter (hremembered ▸ hfit), hkeeps.unused⟩

/-- **A region that is held is registered,** and so is everything that was registered before. -/
theorem exists_hold {r : Region σ} (h : ledger.Keeps fit register)
    (hregistered : r.IsRegistered register) (holding : Holding) :
    ∃ register' : Register σ, register.Grows register' ∧
      (r.hold holding ledger).2.Keeps fit register' ∧
      (r.hold holding ledger).1.IsRegistered register' := by
  induction r generalizing ledger register holding with
  | union id children ih =>
    have hall {rs : List (Region σ)} (hrs : rs ⊆ children) {ledger : Ledger}
        {register : Register σ} (h : ledger.Keeps fit register)
        (hregistered : ∀ r ∈ rs, r.IsRegistered register) :
        ∃ register' : Register σ, register.Grows register' ∧
          (Region.holdAll holding ledger rs).2.Keeps fit register' ∧
          ∀ r ∈ (Region.holdAll holding ledger rs).1, r.IsRegistered register' := by
      induction rs generalizing ledger register with
      | nil => exact ⟨register, .refl register, h, fun r hr => by cases hr⟩
      | cons r rs ihrs =>
        rw [List.cons_subset] at hrs
        rw [List.forall_mem_cons] at hregistered
        obtain ⟨register₁, hgrows₁, hkeeps₁, hfirst⟩ :=
          ih r hrs.1 h hregistered.1 holding
        obtain ⟨register₂, hgrows₂, hkeeps₂, hrest⟩ :=
          ihrs hrs.2 hkeeps₁ fun r hr => (hregistered.2 r hr).mono hgrows₁
        exact ⟨register₂, hgrows₁.trans hgrows₂, hkeeps₂,
          List.forall_mem_cons.2 ⟨hfirst.mono hgrows₂, hrest⟩⟩
    -- The union's id is entered with the bare children: the ids that these get come later.
    obtain ⟨register₁, hgrows₁, hkeeps₁, hassigned⟩ :=
      h.exists_assign holding fun i hi =>
        hregistered.here i children (congrArg (Region.union · children) hi)
    obtain ⟨register₂, hgrows₂, hkeeps₂, hchildren⟩ :=
      hall (List.Subset.refl _) hkeeps₁ fun r hr =>
        Region.IsRegistered.mono hgrows₁ (hregistered.child hr)
    refine ⟨register₂, hgrows₁.trans hgrows₂, hkeeps₂, .union (fun i held hunion => ?_)
      hchildren⟩
    obtain ⟨hid, rfl⟩ := Region.union.inj hunion
    rw [Region.map_bare_holdAll fun r _ ledger => Region.bare_hold holding ledger r]
    exact hgrows₂ i _ (hassigned i hid)
  | static inner ih =>
    obtain ⟨register', hgrows, hkeeps, hinner⟩ :=
      ih h (hregistered.part (.marked inner)) .shared
    refine ⟨register', hgrows, hkeeps, .static (fun i children hunion => ?_) hinner⟩
    cases hunion
  | _ => exact ⟨register, .refl register, h, hregistered⟩

end Keeps

/-! ## Ledgers in use -/

/-- The ids in use make sense: a register has all regions that are known, and what the ledger
remembers is fit for it. -/
def Registers (fit : List (Region σ) → Strategy → Prop) (ledger : Ledger)
    (known : Set (Region σ)) : Prop :=
  ∃ register : Register σ, ledger.Keeps fit register ∧ ∀ r ∈ known, r.IsRegistered register

namespace Registers

variable {fit : List (Region σ) → Strategy → Prop} {ledger : Ledger} {known : Set (Region σ)}
  {r : Region σ}

lemma new : Registers fit {} (∅ : Set (Region σ)) :=
  ⟨fun _ => none, ⟨Memo.Keeps.empty, fun _ _ => rfl⟩, fun r hr => by cases hr⟩

lemma hold (h : Registers fit ledger known) (holding : Holding) (hmade : r.IsMadeOf known) :
    Registers fit (r.hold holding ledger).2 (insert (r.hold holding ledger).1 known) := by
  obtain ⟨register, hkeeps, hknown⟩ := h
  obtain ⟨register', hgrows, hkeeps', hheld⟩ :=
    hkeeps.exists_hold (hmade.isRegistered hknown) holding
  refine ⟨register', hkeeps', ?_⟩
  rintro r (rfl | hr)
  exacts [hheld, (hknown r hr).mono hgrows]

lemma listing (h : Registers fit ledger known) (s : σ) (frozen : Bool) (hmade : r.IsMadeOf known)
    (hselects : r.SelectsFit fit) :
    Registers fit { ledger with memo := r.settle s frozen ledger.memo } known := by
  obtain ⟨register, hkeeps, hknown⟩ := h
  exact ⟨register, ⟨hkeeps.keeps.settle hselects (hmade.isRegistered hknown) s frozen,
    hkeeps.unused⟩, hknown⟩

lemma question {id : Option UnionId} {children : List (Region σ)} (h : Registers fit ledger known)
    (s : σ) (hmade : Region.IsMadeOf known (.union id children))
    (hselects : Region.SelectsFit fit (.union id children)) :
    Registers fit
      { ledger with memo := ledger.memo.remember id (ledger.memo.strategy s id children) }
      known := by
  obtain ⟨register, hkeeps, hknown⟩ := h
  have hregistered := hmade.isRegistered hknown
  exact ⟨register, ⟨hkeeps.keeps.remember hregistered
    (hkeeps.keeps.fit_strategy hregistered (hselects.here id children rfl s)),
    hkeeps.unused⟩, hknown⟩

end Registers

/-- How a ledger comes about, and the regions that it gave ids to: regions are held, listed and
asked for their strategies, in any states and in any order.  Each is made of regions that were held
before, and those that are listed or asked are honest. -/
inductive Made : Ledger → Set (Region σ) → Prop
  | new : Made {} ∅
  | hold {ledger : Ledger} {known : Set (Region σ)} (h : Made ledger known) (holding : Holding)
      (r : Region σ) (hmade : r.IsMadeOf known) :
      Made (r.hold holding ledger).2 (insert (r.hold holding ledger).1 known)
  | listing {ledger : Ledger} {known : Set (Region σ)} (h : Made ledger known) (s : σ)
      (frozen : Bool) (r : Region σ) (hhonest : r.IsHonest) (hmade : r.IsMadeOf known) :
      Made { ledger with memo := r.settle s frozen ledger.memo } known
  | question {ledger : Ledger} {known : Set (Region σ)} (h : Made ledger known) (s : σ)
      (id : Option UnionId) (children : List (Region σ))
      (hhonest : Region.IsHonest (.union id children))
      (hmade : Region.IsMadeOf known (.union id children)) :
      Made { ledger with memo := ledger.memo.remember id (ledger.memo.strategy s id children) }
        known

namespace Made

variable {ledger : Ledger} {known : Set (Region σ)}

/-- **The ids in use make sense:** a register has them all, and what is remembered agrees with
it. -/
theorem exists_register (h : Made ledger known) :
    ∃ register : Register σ, ledger.Consistent register ∧
      ∀ r ∈ known, r.IsRegistered register := by
  have hregisters : Registers (fun children strategy => ∀ s, strategy = .select s children)
      ledger known := by
    induction h with
    | new => exact .new
    | hold _ holding r hmade ih => exact ih.hold holding hmade
    | listing _ s frozen r hhonest hmade ih => exact ih.listing s frozen hmade hhonest.selectsFit
    | question _ s id children hhonest hmade ih =>
      exact ih.question s hmade (Region.IsHonest.selectsFit hhonest)
  obtain ⟨register, hkeeps, hknown⟩ := hregisters
  exact ⟨register, ⟨hkeeps.keeps, hkeeps.unused⟩, hknown⟩

/-- **What is remembered never shows.** -/
theorem blocks_eq (h : Made ledger known) {r : Region σ} (hmade : r.IsMadeOf known) (s : σ) :
    r.blocks ledger.memo s = r.blocks ∅ s := by
  obtain ⟨register, hconsistent, hknown⟩ := h.exists_register
  rw [Region.blocks, Region.blocks,
    hconsistent.agrees.cursor_eq (hmade.isRegistered hknown) s false]

end Made
end Ledger

/-! ## Atlases -/

namespace Atlas

variable (atlas : Atlas σ) {known : Set (Region σ)}

lemma blocks_fst (s : σ) (r : Region σ) :
    (atlas.blocks s r).1 = r.blocks atlas.ledger.memo s := by
  unfold blocks
  dsimp only
  cases r.blocks atlas.ledger.memo s <;> rfl

lemma made_add (h : Ledger.Made atlas.ledger known) {r : Region σ} (hmade : r.IsMadeOf known) :
    Ledger.Made (atlas.add r).ledger (insert (r.hold .owned atlas.ledger).1 known) :=
  h.hold .owned r hmade

lemma made_blocks (h : Ledger.Made atlas.ledger known) (s : σ) {r : Region σ}
    (hhonest : r.IsHonest) (hmade : r.IsMadeOf known) :
    Ledger.Made (atlas.blocks s r).2.ledger known := by
  unfold blocks
  dsimp only
  cases r.blocks atlas.ledger.memo s with
  | error e => exact h
  | ok c => exact h.listing s false r hhonest hmade

/-! ## Atlases in use -/

/-- How an atlas comes about, and the regions that it gave ids to: regions are shared, added, listed
and asked for their strategies, in any states and in any order.  Each is made of regions that were
held before: a clone of one, its frozen form (`Region.IsMadeOf.toStatic`), or a union of some.
Unlike with `Ledger.Made`, they may be marked as static wherever one likes. -/
inductive Used : Atlas σ → Set (Region σ) → Prop
  | new : Used {} ∅
  | share {atlas : Atlas σ} {known : Set (Region σ)} (h : Used atlas known) (r : Region σ)
      (hmade : r.IsMadeOf known) :
      Used { atlas with ledger := (r.hold .lent atlas.ledger).2 }
        (insert (r.hold .lent atlas.ledger).1 known)
  | add {atlas : Atlas σ} {known : Set (Region σ)} (h : Used atlas known) (r : Region σ)
      (hmade : r.IsMadeOf known) :
      Used (atlas.add r) (insert (r.hold .owned atlas.ledger).1 known)
  | blocks {atlas : Atlas σ} {known : Set (Region σ)} (h : Used atlas known) (s : σ)
      (r : Region σ) (hmade : r.IsMadeOf known) : Used (atlas.blocks s r).2 known
  | strategy {atlas : Atlas σ} {known : Set (Region σ)} (h : Used atlas known) (s : σ)
      (r : Region σ) (hmade : r.IsMadeOf known) : Used (atlas.strategy? s r).2 known

variable {atlas}

/-- **What an atlas remembers for a union was selected by its children in some state.** -/
theorem Used.registers (h : atlas.Used known) :
    Ledger.Registers (fun children strategy => ∃ s, strategy = .select s children)
      atlas.ledger known := by
  have hselects (r : Region σ) :
      r.SelectsFit fun children strategy => ∃ s, strategy = .select s children := by
    refine Region.Throughout.of_forall (fun r id children _ s => ⟨s, ?_⟩) r
    rw [Region.select_bare]
  induction h with
  | new => exact .new
  | share _ r hmade ih => exact ih.hold .lent hmade
  | add _ r hmade ih => exact ih.hold .owned hmade
  | @blocks atlas _ _ s r hmade ih =>
    unfold Atlas.blocks
    dsimp only
    cases r.blocks atlas.ledger.memo s with
    | error e => exact ih
    | ok c => exact ih.listing s false hmade (hselects r)
  | strategy _ s r hmade ih =>
    cases r with
    | union id children => exact ih.question s hmade (hselects _)
    | _ => exact ih

end Atlas
end RegionRules
