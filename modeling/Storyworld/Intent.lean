import Storyworld.View

/-!
# Intents

What the player means to do, with the entities it is about. `View.describe` puts an intent into
words, as a question to the player or an account of what was done.
-/

namespace Storyworld

/-- What the player means to do. -/
inductive Intent
  | move (exit : EntityId)
  /-- To look at something, or around. -/
  | examine (target : Option EntityKey)
  | take (target : EntityKey)
  | drop (target : EntityKey)
  /-- To use an item, perhaps on something. -/
  | use (item : EntityKey) (on : Option EntityKey)
  | talk (target : EntityKey)
  | interact (interaction : EntityId)
  deriving DecidableEq, Repr

namespace Intent

def verb : Intent → String
  | move _ => "move"
  | examine _ => "examine"
  | take _ => "take"
  | drop _ => "drop"
  | use _ _ => "use"
  | talk _ => "talk"
  | interact _ => "interact"

def text : Intent → String
  | move exit => s!"move({exit})"
  | examine none => "examine(here)"
  | examine (some target) => s!"examine({target.text})"
  | take target => s!"take({target.text})"
  | drop target => s!"drop({target.text})"
  | use item none => s!"use({item.text})"
  | use item (some on) => s!"use({item.text} on {on.text})"
  | talk target => s!"talk({target.text})"
  | interact interaction => s!"interact({interaction})"

end Intent

def View.describe (v : View) : Intent → String
  | .move exit =>
    match v.exit? exit with
    | some d =>
      match d.direction with
      | some direction => "go " ++ direction
      | none => "go to " ++ v.displayName (.location d.destination)
    | none => "go " ++ exit
  | .examine none => "look around"
  | .examine (some target) => "examine the " ++ v.displayName target
  | .take target => "take the " ++ v.displayName target
  | .drop target => "drop the " ++ v.displayName target
  | .use item none => "use the " ++ v.displayName item
  | .use item (some on) => "use the " ++ v.displayName item ++ " on the " ++ v.displayName on
  | .talk target => "talk to " ++ v.displayName target
  | .interact interaction =>
    ((v.catalog.interactions.get? interaction).bind (·.triggers.head?)).getD interaction

end Storyworld
