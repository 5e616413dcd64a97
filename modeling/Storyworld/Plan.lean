import Storyworld.Intent

/-!
# Plans

The effects that an intent would have if it were approved. Planning looks up; it does not ask
whether the intent is allowed. An intent may bring an authored interaction with it: one that is
ready if there is one, else one that has not run yet, so that its unmet requirement is told.
-/

namespace Storyworld

/-- What an intent would do. -/
structure Plan where
  intent : Intent
  /-- The effects, in order. -/
  effects : List Effect
  /-- The interaction that contributes to them. -/
  interaction : Option EntityId := none
  response : Option String := none
  deriving DecidableEq, Repr

namespace Plan

def attach (p : Plan) (d : Interaction) : Plan :=
  { p with
    effects := p.effects ++ d.effects
    interaction := some d.id
    response := d.response }

def attach? (p : Plan) : Option Interaction → Plan
  | none => p
  | some d => p.attach d

end Plan

namespace View

variable (v : View)

/-- The interactions of a kind that are offered here, in declaration order. -/
def offered (kind : InteractionKind) : List Interaction :=
  v.catalog.interactions.toList.filter fun d => d.kind == kind && v.offers d

/-- The first interaction that is ready, else the first that is not spent. -/
def preferred (candidates : List Interaction) : Option Interaction :=
  let unspent := candidates.filter fun d => !v.spent d
  unspent.find? v.ready <|> unspent.head?

/-- The interaction that goes with an intent. -/
def rider? : Intent → Option Interaction
  | .move _ | .examine none | .drop _ => none
  | .examine (some target) =>
    (v.offered .examine).find? fun d => d.target == some target && v.ready d
  | .take target => v.preferred ((v.offered .take).filter (·.item == some target.id))
  | .use item on =>
    v.preferred ((v.offered .use).filter fun d =>
      d.item == some item.id && item.kind == .item && d.target == on)
  | .talk target => v.preferred ((v.offered .talk).filter (·.target == some target))
  | .interact interaction => v.catalog.interactions.get? interaction

/-- The effects of an intent by itself. -/
def ownEffects : Intent → List Effect
  | .move exit => ((v.catalog.exits.get? exit).map fun d => .movePlayer d.destination).toList
  | .take target => if target.kind = .item then [.giveItem target.id] else []
  | .drop target => if target.kind = .item then [.placeItem target.id v.state.location] else []
  | _ => []

/-- Plans an intent. -/
def plan (intent : Intent) : Plan :=
  Plan.attach? { intent, effects := v.ownEffects intent } (v.rider? intent)

end View

def Interaction.subject? (d : Interaction) : Option EntityKey := d.target <|> d.item.map .item

end Storyworld
