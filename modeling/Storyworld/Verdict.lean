import Storyworld.Plan
import Storyworld.Outlook

/-!
# Verdicts

Whether a plan is allowed. The checks come in a fixed order: the verb fits its target; the way, the
target and the interaction are there and ready; the item is at hand; critical items stay with the
player; and the player can still win. The first check that objects decides.
-/

namespace Storyworld

/-- Why an intent is refused. -/
inductive Refusal
  | actBoundary | exitHidden | exitLocked | requirementUnmet | alreadyDone | notCarried | notHere
  | alreadyCarried | notPortable | criticalItem | unwinnable
  deriving DecidableEq, Repr

def Refusal.code : Refusal → String
  | actBoundary => "act_boundary_violation"
  | exitHidden => "exit_hidden"
  | exitLocked => "exit_locked"
  | requirementUnmet => "requirement_unmet"
  | alreadyDone => "already_done"
  | notCarried => "not_carried"
  | notHere => "not_here"
  | alreadyCarried => "already_carried"
  | notPortable => "not_portable"
  | criticalItem => "critical_item_protection_triggered"
  | unwinnable => "safety_invariant_violation"

/-- A refusal with the reason that the player is told. -/
structure Rejection where
  refusal : Refusal
  reason : String
  deriving DecidableEq, Repr

/-- What becomes of a plan. -/
inductive Verdict
  | approved (effects : List Effect)
  | rejected (r : Rejection)
  /-- The verb does not fit its target; the player is asked to put it otherwise. -/
  | reinterpret (text : String)
  deriving DecidableEq, Repr

namespace Verdict

def isApproved : Verdict → Bool
  | approved _ => true
  | _ => false

def refusal? : Verdict → Option Refusal
  | rejected r => some r.refusal
  | _ => none

def object (refusal : Refusal) (reason : String) : Option Verdict :=
  some (rejected ⟨refusal, reason⟩)

end Verdict

namespace View

open Verdict (object)

variable (v : View)

/-- The verb and the kind of thing that it takes. -/
def wantedKind? : Intent → Option (EntityKey × EntityKind × String)
  | .take target => some (target, .item, "pick up")
  | .drop target => some (target, .item, "drop")
  | .use item _ => some (item, .item, "use")
  | .talk target => some (target, .character, "talk to")
  | _ => none

/-- Objects to a verb that does not fit its target. -/
def checkFit (intent : Intent) : Option Verdict :=
  match wantedKind? intent with
  | none => none
  | some (key, kind, verb) =>
    if key.kind = kind then none
    else some (.reinterpret s!"The {v.displayName key} is not something you can {verb}.")

def checkPresent (key : EntityKey) : Option Verdict :=
  if v.isPresent key then none else object .notHere s!"The {v.displayName key} is not here."

/-- Objects to an exit that cannot be taken from here. -/
def checkWay (exit : EntityId) : Option Verdict :=
  match (v.exit? exit).filter (·.origin == v.state.location) with
  | none => object .notHere "You can't go that way."
  | some e =>
    if !v.exitVisible e then object .exitHidden "You can't go that way."
    else if !v.reachableLocations.contains e.destination then
      object .actBoundary "Something tells you it is not yet time to go there."
    else if !v.exitOpen e then object .exitLocked (e.lockedMessage.getD "The way is locked.")
    else none

def checkTarget : Intent → Option Verdict
  | .move exit => v.checkWay exit
  | .examine (some target) | .talk target => v.checkPresent target
  | .use _ (some on) => v.checkPresent on
  | _ => none

def checkInteraction (intent : Intent) (d : Interaction) : Option Verdict :=
  if !v.offers d then object .notHere "That can't be done here."
  else
    (match intent, d.target with
      | .interact _, some target => v.checkPresent target
      | _, _ => none) <|>
    if !v.holds? d.requires then
      object .requirementUnmet (d.refusal.getD "You can't do that yet.")
    else if v.spent d then object .alreadyDone "You have already done that."
    else none

/-- Objects to a plan whose way, target or interaction is not there. -/
def checkAccess (p : Plan) : Option Verdict :=
  v.checkTarget p.intent <|>
    (p.interaction.bind v.catalog.interactions.get?).bind (v.checkInteraction p.intent)

def isFixtureHere (item : EntityId) : Bool :=
  (v.catalog.items.get? item).any (!·.portable) && (v.placement item).isIn v.state.location

/-- Objects to an item that is not at hand. -/
def checkOwnership : Intent → Option Verdict
  | .drop target =>
    if v.state.hasItem target.id then none
    else object .notCarried s!"You aren't carrying the {v.displayName target}."
  | .use item _ =>
    if v.state.hasItem item.id || v.isFixtureHere item.id then none
    else object .notCarried s!"You aren't carrying the {v.displayName item}."
  | .take target =>
    if v.state.hasItem target.id then
      object .alreadyCarried s!"You already have the {v.displayName target}."
    else if !(v.placement target.id).isIn v.state.location then
      object .notHere s!"The {v.displayName target} is not here."
    else if (v.catalog.items.get? target.id).any (!·.portable) then
      object .notPortable s!"The {v.displayName target} won't budge."
    else none
  | _ => none

/-- The first critical item that a list of effects would take away, given what is carried. Drops and
hand-overs take only what is carried when their turn comes. -/
def criticalLoss? (c : Catalog) (carried : List EntityId) : List Effect → Option EntityId
  | [] => none
  | e :: es =>
    let lost := match e with
      | .removeItem item | .destroyItem item => some item
      | .placeItem item _ | .handItem item _ => if carried.contains item then some item else none
      | _ => none
    let carried := match e with
      | .placeItem item _ | .handItem item _ => carried.filter (· != item)
      | .giveItem item => carried.insert item
      | _ => carried
    match lost.filter c.isCritical with
    | some item => some item
    | none => criticalLoss? c carried es

def checkCritical (effects : List Effect) : Option Verdict :=
  match criticalLoss? v.catalog v.state.inventory effects with
  | none => none
  | some item =>
    let name := v.displayName (.item item)
    object .criticalItem s!"You think better of it; the {name} is far too important to part with."

/-- Objects to effects after which the game could no longer be won, if it still could. -/
def checkWinnable (effects : List Effect) : Option Verdict :=
  if effects.isEmpty then none
  else
    match v.state.applyAll v.catalog effects with
    | .error _ => none
    | .ok after =>
      if (View.mk v.catalog after).canWin || !v.canWin then none
      else object .unwinnable "Some instinct stays your hand."

/-- The verdict on a plan. -/
def validate (p : Plan) : Verdict :=
  (v.checkFit p.intent <|> v.checkAccess p <|> v.checkOwnership p.intent <|>
    v.checkCritical p.effects <|> v.checkWinnable p.effects).getD (.approved p.effects)

end View
end Storyworld
