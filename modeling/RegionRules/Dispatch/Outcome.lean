import RegionRules.Event.Basic
import RegionRules.Rule.Rule

/-!
# Outcomes

Dispatching an event may change the event, the match state, and put questions to filters and
requests to a player.  An outcome has all of it: the event and state as they are left, and a trace
of the questions and requests in order.
-/

set_option autoImplicit false

namespace RegionRules

/-! ## Players -/

/-- What a player may be asked to undergo. -/
inductive Request where
  | setVelocity (velocity : Vec3)
  | applyKit (kit : KitId) (force : Bool)
  /-- Take back the items of a lent kit. -/
  | removeKit (kit : KitId)
  | warn (message : String)
  deriving DecidableEq

/-- A player in the match, as a part of its state. -/
structure Player (σ : Type) where
  id : PlayerId
  location : σ → Vec3
  /-- The player may affect the world; observers may not. -/
  canInteract : σ → Bool
  itemInHand : σ → Option Material
  /-- The state after a request. -/
  perform : Request → σ → σ

/-- The player as it stands. -/
def Player.state {σ : Type} (p : Player σ) (w : σ) : PlayerState := ⟨p.id, p.location w⟩

/-- The player, provided that it may affect the world. -/
def Player.active? {σ : Type} (player : Option (Player σ)) (w : σ) : Option (Player σ) :=
  player.filter (·.canInteract w)

/-! ## Outcomes -/

/-- One item of a trace. -/
inductive Entry (σ : Type) where
  /-- The filter of a rule was asked and answered. -/
  | consulted (rule : Rule σ) (query : Query) (answer : Answer)
  /-- A request was put to the player. -/
  | requested (request : Request)

/-- What is left after dispatching an event. -/
structure Outcome (σ : Type) where
  event : Event
  world : σ
  trace : List (Entry σ)

namespace Outcome

variable {σ : Type}

/-- Nothing happens. -/
def unchanged (e : Event) (w : σ) : Outcome σ := ⟨e, w, []⟩

/-- Go on from an outcome. -/
def andThen (first : Outcome σ) (next : Event → σ → Outcome σ) : Outcome σ :=
  let second := next first.event first.world
  ⟨second.event, second.world, first.trace ++ second.trace⟩

/-- Put requests to a player, if there is one, in order. -/
def request (player : Option (Player σ)) (requests : List Request) (e : Event) (w : σ) :
    Outcome σ :=
  match player with
  | none => unchanged e w
  | some p => ⟨e, requests.foldl (fun w r => p.perform r w) w, requests.map .requested⟩

end Outcome

/-! ## Decisions of single rules -/

/-- Put an event to the filter of a rule.  An answer to allow lets the event go ahead, one to deny
cancels it with the rule's message.  Also tells whether the rule decided; without a filter it does
not. -/
def Rule.decide {σ : Type} (rule : Rule σ) (query : Query) (e : Event) (w : σ) :
    Bool × Outcome σ :=
  match rule.filter with
  | none => (false, .unchanged e w)
  | some filter =>
    let (answer, w) := filter.ask query w
    (answer.isDecisive, ⟨e.apply answer rule.message, w, [.consulted rule query answer]⟩)

end RegionRules
