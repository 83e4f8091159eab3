import RegionRules.Proofs.Dispatch.Occasions
import RegionRules.Proofs.Dispatch.Uses

/-!
# Hearings

A player starts to break a block; something is hung up, broken down, put into a frame or popped out
of it.  All five bring about a hearing: the rules of one scope whose regions have a certain block
are asked one and the same question, and the player in that question, if there is one, is told of
every denial.

The handlers work out block, material and player each in its own way, which `Occasion.Brings` puts
side by side.  From there on a hearing is one pass (`Dispatcher.hearingPass`), and its law is proved
once (`Dispatcher.handle_ruled`): the last decision rules the event, although denials before it have
been told already.
-/

set_option autoImplicit false

namespace RegionRules

variable {σ : Type}

/-! ## What is heard -/

/-- An event is put to rules of a scope about a block. -/
structure Hearing (σ : Type) where
  event : Event
  scope : Scope
  /-- Only rules for early warning are asked. -/
  earlyOnly : Bool := false
  block : Block
  /-- Takes the place of the block's own material. -/
  instead : Option Material := none
  /-- The player whom the question is about, and who is told of denials. -/
  player : Option (Player σ)

namespace Hearing

/-- The question of a hearing, with the player as it stands at first. -/
def query (h : Hearing σ) (w : σ) : Query where
  kind := h.event.kind
  player := h.player.map (·.state w)
  block := some h.block
  instead := h.instead

/-- A hearing that begins in the state `w` concerns the rules whose region has the block; if it is
for early warning, only those that are for it, too. -/
def Concern (h : Hearing σ) (w : σ) : Concern σ := fun rule w' query =>
  (h.earlyOnly = true → rule.earlyWarning = true) ∧
    rule.region.containsBlock w' h.block.position = true ∧ query = h.query w

end Hearing

/-- The hearing that an occasion brings about in the state `w`.  Who cannot interact takes no part
in the hearings about hanging entities, but may be warned early. -/
inductive Occasion.Brings (w : σ) : Occasion σ → Hearing σ → Prop
  | damage (p : Player σ) (block : Block) (status : Status) :
      Brings w (.blockDamage (some p) block status)
        { event := .blockDamage block status, scope := .blockBreak, earlyOnly := true, block,
          player := some p }
  | hanging (player : Option (Player σ)) (entity : HangingEntity) (status : Status) :
      Brings w (.hangingPlace player entity status)
        { event := .hangingPlace entity status, scope := .blockPlace, block := entity.block,
          instead := entity.itemMaterial, player := Player.active? player w }
  | filling (p : Player σ) {frame : HangingEntity} (status : Status) {item : Material}
      (hframe : frame.kind = .itemFrame none) (hitem : p.itemInHand w = some item) :
      Brings w (.itemFrameRotate (some p) (some frame) status)
        { event := .interactEntity (some frame) status, scope := .blockPlace, block := frame.block,
          instead := some item, player := Player.active? (some p) w }
  | breaking (player : Option (Player σ)) {entity : HangingEntity} (remover : Block)
      (status : Status) {material : Material} (hmaterial : entity.itemMaterial = some material) :
      Brings w (.hangingBreak player entity remover status)
        { event := .hangingBreak entity remover status, scope := .blockBreak, block := remover,
          instead := some material, player := Player.active? player w }
  | emptying (player : Option (Player σ)) {frame : HangingEntity} (damager : Block)
      (status : Status) {item : Material} (hframe : frame.kind = .itemFrame (some item)) :
      Brings w (.itemFrameItemRemove player (some frame) damager status)
        { event := .entityDamage (some frame) damager status, scope := .blockBreak,
          block := damager, instead := some .itemFrame, player := Player.active? player w }

/-! ## Events that keep no message -/

namespace Event

/-- The event stands as its status says, and keeps no message of a denial. -/
def KeepsNone (e : Event) : Prop := e.status?.isSome = true ∧ e.keepsMessage = false

/-- The event as a decision leaves it, cancelled or not; without a decision it is as it was. -/
def ruled (e : Event) : Option Decision → Event
  | none => e
  | some d => e.mapStatus fun s => { s with cancelled := decide (d.answer = .deny) }

variable {e : Event}

/-- A later decision takes the place of an earlier one. -/
lemma ruled_ruled (e : Event) (earlier : Option Decision) (d : Decision) :
    (e.ruled earlier).ruled (some d) = e.ruled (some d) := by
  cases earlier <;> cases e <;> rfl

lemma foldl_ruled (e : Event) (decisions : List Decision) :
    decisions.foldl (fun e d => e.ruled (some d)) e = e.ruled decisions.getLast? := by
  induction decisions using List.reverseRecOn with
  | nil => rfl
  | append_singleton decisions d ih =>
    rw [List.foldl_append, ih, List.getLast?_concat]
    exact ruled_ruled e _ d

lemma KeepsNone.ruled (he : e.KeepsNone) (d : Decision) : (e.ruled (some d)).KeepsNone := by
  cases e with
  | interact click => cases he.1
  | _ => exact ⟨rfl, he.2⟩

lemma KeepsNone.apply_eq (he : e.KeepsNone) {answer : Answer} (hanswer : answer.isDecisive = true)
    (message : Option String) : e.apply answer message = e.ruled (some ⟨answer, message⟩) := by
  cases e with
  | interact click => cases he.1
  | coarseMove move status => cases he.2
  | blockTransform change status => cases he.2
  | _ =>
    cases answer with
    | abstain => cases hanswer
    | _ => rfl

lemma KeepsNone.isCancelled_ruled (he : e.KeepsNone) (d : Decision) :
    (e.ruled (some d)).isCancelled = decide (d.answer = .deny) := by
  cases e with
  | interact click => cases he.1
  | _ => rfl

end Event

/-! ## Walks of the priority regime -/

/-- A walk in which every decision is final has at most one. -/
lemma WarnedWalk.length_decisions_le_one {concern : Concern σ} {final : Rule σ → Prop}
    {player : Option (Player σ)} {rules : List (Rule σ)} {w w' : σ} {trace : List (Entry σ)}
    (h : WarnedWalk concern final player rules w trace w') (hfinal : ∀ rule, final rule) :
    (Entry.decisions trace).length ≤ 1 := by
  induction h with
  | nil w => exact Nat.zero_le 1
  | skip hskip hrest ih => exact ih
  | @stop rule rules w w₁ query answer hask hanswer hrule =>
    rw [Entry.decisions_cons_told_nil, Entry.decisions_consulted, if_pos hanswer]
    exact le_refl 1
  | @go rule rules w w₁ w' trace query answer hask hgo hrest ih =>
    have hanswer : ¬ answer.isDecisive = true := fun hanswer => hgo ⟨hanswer, hfinal rule⟩
    rw [Entry.decisions_cons_told, Entry.decisions_consulted, if_neg hanswer]
    exact ih

/-- A decision has one thing to tell at most. -/
lemma Decision.length_flatMap_warnings_le (decisions : List Decision) :
    (decisions.flatMap warnings).length ≤ decisions.length := by
  induction decisions with
  | nil => exact le_refl 0
  | cons d decisions ih =>
    have hone : d.warnings.length ≤ 1 := by
      unfold warnings
      split_ifs
      · cases d.message <;> simp
      · exact Nat.zero_le 1
    rw [List.flatMap_cons, List.length_append, List.length_cons]
    omega

namespace Dispatcher

/-! ## The pass of a hearing -/

/-- The pass that a hearing is. -/
def hearingPass (d : Dispatcher σ) (h : Hearing σ) (w : σ) : Pass σ where
  select rule w' :=
    if !h.earlyOnly || rule.earlyWarning then
      blockQuery h.block.position (h.query w) rule w'
    else none
  react := warnIfCancelled h.player
  halts := d.halts

variable {d : Dispatcher σ} {h : Hearing σ} {w : σ}

lemma hearingPass_select {rule : Rule σ} {w' : σ} {query : Query} :
    (d.hearingPass h w).select rule w' = some query ↔ h.Concern w rule w' query := by
  have hearly : (!h.earlyOnly || rule.earlyWarning) = true ↔
      (h.earlyOnly = true → rule.earlyWarning = true) := by
    cases h.earlyOnly <;> simp
  simp only [hearingPass, Option.ite_none_right_eq_some, blockQuery_eq_some, hearly]
  rfl

lemma settles_hearingPass (d : Dispatcher σ) (h : Hearing σ) (w : σ) :
    (d.hearingPass h w).Settles h.player Event.KeepsNone fun e d => e.ruled (some d) := by
  refine ⟨fun e d he => he.ruled d, fun rule e w answer hanswer he => ?_⟩
  have hruled := he.isCancelled_ruled (rule.decision answer)
  change warnIfCancelled h.player rule (e.apply answer rule.message) w = _
  rw [he.apply_eq hanswer, warnIfCancelled]
  rw [Rule.decision] at hruled
  simp only [hruled, decide_eq_true_eq]
  rfl

/-- **The occasions of a hearing are handled by its pass.** -/
lemma handle_eq_run (d : Dispatcher σ) {occasion : Occasion σ} (hbrings : occasion.Brings w h)
    (hopen : h.event.isCancelled = false) :
    d.handle occasion w = (d.hearingPass h w).run (d.rules.ofScope h.scope) h.event w := by
  have hgo : ¬ h.event.isCancelled = true := Bool.not_eq_true _ ▸ hopen
  cases hbrings with
  | damage p block status => exact if_neg hgo
  | hanging player entity status => exact if_neg hgo
  | @filling p frame status item hframe hitem =>
    -- The frame passes the test for frames but not the one for frames with an item.
    have hfilter : (some frame).filter (·.isItemFrame) = some frame := by
      simp [HangingEntity.isItemFrame, hframe]
    have hempty : ¬ frame.framedItem.isSome = true := by simp [HangingEntity.framedItem, hframe]
    have hhand : (some p).bind (·.itemInHand w) = some item := hitem
    refine (if_neg hgo).trans ?_
    rw [hfilter]
    dsimp only
    rw [if_neg hempty, hhand]
    rfl
  | @breaking player entity remover status material hmaterial =>
    refine (if_neg hgo).trans ?_
    rw [handleHangingBreak, hmaterial]
    rfl
  | @emptying player frame damager status item hframe =>
    have hfilter : (some frame).filter (·.framedItem.isSome) = some frame := by
      simp [HangingEntity.framedItem, hframe]
    have hmaterial : frame.itemMaterial = some .itemFrame := by
      rw [HangingEntity.itemMaterial, hframe]
    refine (if_neg hgo).trans ?_
    rw [hfilter]
    dsimp only
    rw [handleHangingBreak, hmaterial]
    rfl

lemma keepsNone_of_brings {occasion : Occasion σ} (hbrings : occasion.Brings w h) :
    h.event.KeepsNone := by
  cases hbrings <;> exact ⟨rfl, rfl⟩

/-- **A hearing is ruled by its last decision, and every denial is told.**  Let an occasion bring
about a hearing on an event that is not cancelled yet.  The rules of the scope that the hearing
concerns are asked in order of declaration, up to and including the first that decides and halts.
The event ends as the last decision says, cancelled if that is a denial, and as it was if there is
none; the player is told the messages of the denials in order, if there is one.  In the priority
regime there is at most one decision, and at most one thing to tell. -/
theorem handle_ruled (d : Dispatcher σ) (rules : List (Rule σ)) (hrules : d.rules = .ofList rules)
    {occasion : Occasion σ} (w : σ) {h : Hearing σ} (hbrings : occasion.Brings w h)
    (hopen : h.event.isCancelled = false) :
    let o := d.handle occasion w
    let decisions := Entry.decisions o.trace
    WarnedWalk (h.Concern w) (fun rule => d.usesPriority = true ∨ rule.priorityAware = true)
        h.player (rules.filter (·.scope = h.scope)) w o.trace o.world ∧
      o.event = h.event.ruled decisions.getLast? ∧
      (o.event.isCancelled = true ↔
        ∃ last, decisions.getLast? = some last ∧ last.answer = .deny) ∧
      Entry.requests o.trace = (h.player.elim [] fun _ => decisions.flatMap Decision.warnings) ∧
      (d.usesPriority = true →
        decisions.length ≤ 1 ∧ (Entry.requests o.trace).length ≤ 1) := by
  intro o decisions
  have hkeeps := keepsNone_of_brings hbrings
  have ho : o = (d.hearingPass h w).run (rules.filter (·.scope = h.scope)) h.event w := by
    rw [← RuleSet.ofScope_ofList, ← hrules]
    exact handle_eq_run d hbrings hopen
  obtain ⟨hwalk, hevent⟩ := (settles_hearingPass d h w).run (fun _ _ _ => hearingPass_select)
    (rules.filter (·.scope = h.scope)) hkeeps w
  have hhalts : (fun rule => (d.hearingPass h w).halts rule = true) =
      fun rule => d.usesPriority = true ∨ rule.priorityAware = true :=
    funext fun rule => propext Bool.or_eq_true_iff
  rw [← ho, hhalts] at hwalk
  rw [← ho, Event.foldl_ruled] at hevent
  have hrequests := hwalk.requests_eq
  refine ⟨hwalk, hevent, ?_, hrequests, fun hpriority => ?_⟩
  -- Cancellation is read off the event as it was ruled; it was open before.
  · rw [hevent]
    cases hlast : decisions.getLast? with
    | none => simp [Event.ruled, hopen]
    | some last => simp [hkeeps.isCancelled_ruled]
  · have hone : decisions.length ≤ 1 := hwalk.length_decisions_le_one fun _ => .inl hpriority
    refine ⟨hone, ?_⟩
    rw [hrequests]
    cases h.player with
    | none => exact Nat.zero_le 1
    | some p => exact (Decision.length_flatMap_warnings_le decisions).trans hone

section Posts

/-- Rules on breaking that deny and allow in turn, with one on placing between them.  The third is
for good in the legacy regime. -/
def posts : List (Rule ℕ) :=
  [{ scope := .blockBreak, region := .everywhere, filter := some fickleFilter,
      message := some "mine" },
    { scope := .blockPlace, region := .everywhere, filter := some fickleFilter,
      message := some "full" },
    { scope := .blockBreak, region := .everywhere, filter := some fickleFilter,
      message := some "well" },
    { scope := .blockBreak, region := .everywhere, filter := some fickleFilter,
      message := some "still mine", priorityAware := true },
    { scope := .blockBreak, region := .everywhere, filter := some fickleFilter }]

/-- A frame with a painting in it. -/
def framed : HangingEntity := ⟨⟨⟨0, 0, 0⟩, .air⟩, .itemFrame (some .painting)⟩

/-- The visitor who pops the painting out of the frame is denied, allowed and denied again in the
legacy regime, and told of both denials; without a player nothing is told.  In the priority regime
the first denial is all. -/
theorem posts_ruled :
    let d (priority : Bool) : Dispatcher ℕ := ⟨.ofList posts, priority, true, none⟩
    let damager : Block := ⟨⟨0, 0, 0⟩, .air⟩
    let occasion (player : Option (Player ℕ)) : Occasion ℕ :=
      .itemFrameItemRemove player (some framed) damager {}
    let hearing (player : Option (Player ℕ)) : Hearing ℕ :=
      { event := .entityDamage (some framed) damager {}, scope := .blockBreak, block := damager,
        instead := some .itemFrame, player }
    let o := (d false).handle (occasion (some visitor)) 0
    (occasion (some visitor)).Brings 0 (hearing (some visitor)) ∧
      (hearing (some visitor)).event.isCancelled = false ∧
      (WarnedWalk ((hearing (some visitor)).Concern 0)
          (fun rule => false = true ∨ rule.priorityAware = true) (some visitor)
          (posts.filter (·.scope = .blockBreak)) 0 o.trace o.world ∧
        o.event = (hearing none).event.ruled (Entry.decisions o.trace).getLast? ∧
        (o.event.isCancelled = true ↔
          ∃ last, (Entry.decisions o.trace).getLast? = some last ∧ last.answer = .deny) ∧
        Entry.requests o.trace = (Entry.decisions o.trace).flatMap Decision.warnings ∧
        (false = true → (Entry.decisions o.trace).length ≤ 1 ∧
          (Entry.requests o.trace).length ≤ 1)) ∧
      (Entry.decisions o.trace).map (·.answer) = [.deny, .allow, .deny] ∧
      Entry.requests o.trace = [.warn "mine", .warn "still mine"] ∧
      o.event.isCancelled = true ∧
      Entry.requests ((d false).handle (occasion none) 0).trace = [] ∧
      Entry.requests ((d true).handle (occasion (some visitor)) 0).trace = [.warn "mine"] := by
  intro d damager occasion hearing o
  have hbrings : (occasion (some visitor)).Brings 0 (hearing (some visitor)) :=
    .emptying (some visitor) damager {} rfl
  have hnobody : (occasion none).Brings 0 (hearing none) := .emptying none damager {} rfl
  have hspec := handle_ruled (d false) posts rfl 0 hbrings rfl
  have hrun (priority : Bool) {player : Option (Player ℕ)}
      (h : (occasion player).Brings 0 (hearing player)) :
      (d priority).handle (occasion player) 0 =
        ((d priority).hearingPass (hearing player) 0).run (posts.filter (·.scope = .blockBreak))
          (hearing player).event 0 :=
    (handle_eq_run (d priority) h rfl).trans (by rw [RuleSet.ofScope_ofList])
  have ho : o = _ := hrun false hbrings
  refine ⟨hbrings, rfl, hspec, ?_⟩
  rw [ho, hrun false hnobody, hrun true hbrings]
  decide

end Posts

end Dispatcher

end RegionRules
