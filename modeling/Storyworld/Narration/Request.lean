import Storyworld.Acts
import Storyworld.Intent

/-!
# Narration requests

Everything needed to tell one committed turn, with all names looked up: where the player was, what
was done, what it changed, and what is to be seen.
-/

namespace Storyworld.Narration

/-- Where the player was before the turn. -/
structure Prior where
  location : String := ""
  act : String := ""
  /-- The names of the carried items. -/
  inventory : List String := []
  deriving DecidableEq, Repr

def Prior.of (v : View) : Prior where
  location := v.displayName (.location v.state.location)
  act := v.actName
  inventory := v.inventoryNames

/-- An effect with the names that it mentions. -/
structure ToldEffect where
  effect : Effect
  /-- What the effect is about. -/
  subject : Option String := none
  /-- Where it leads, or to whom. -/
  object : Option String := none
  /-- The author's guidance for the subject. -/
  guidance : Option String := none
  deriving DecidableEq, Repr

/-- An exit in words: its direction, else where it leads. -/
def exitLabel (v : View) (e : Exit) : String :=
  e.direction.getD (v.displayName (.location e.destination))

def itemGuidance (v : View) (item : EntityId) : Option String :=
  (v.catalog.items.get? item).bind (·.narrative)

def ToldEffect.of (v : View) (e : Effect) : ToldEffect :=
  let name (key : EntityKey) : Option String := some (v.displayName key)
  match e with
  | .giveItem item | .removeItem item | .destroyItem item =>
    { effect := e, subject := name (.item item), guidance := itemGuidance v item }
  | .placeItem item location =>
    { effect := e, subject := name (.item item), object := name (.location location)
      guidance := itemGuidance v item }
  | .handItem item character =>
    { effect := e, subject := name (.item item), object := name (.character character)
      guidance := itemGuidance v item }
  | .movePlayer location =>
    { effect := e, subject := name (.location location)
      guidance := (v.catalog.locations.get? location).bind (·.narrative) }
  | .moveCharacter character location =>
    { effect := e, subject := name (.character character), object := name (.location location)
      guidance := (v.catalog.characters.get? character).bind (·.narrative) }
  | .lockExit exit _ | .hideExit exit _ =>
    let d := v.catalog.exits.get? exit
    { effect := e, subject := d.map (exitLabel v), guidance := d.bind (·.narrative) }
  | .adjustCounter character _ _ | .setCounter character _ _ =>
    { effect := e, subject := name (.character character) }
  | .describe key _ => { effect := e, subject := name key }
  | .completeSpoke spoke =>
    { effect := e, subject := (v.catalog.spokes.get? spoke).bind (·.name) }
  | .advanceAct act => { effect := e, subject := name (.act act) }
  | .setFlag _ _ | .clearFlag _ => { effect := e }

/-- What the player sees around. -/
structure Scene where
  name : String := ""
  description : String := ""
  characters : List String := []
  items : List String := []
  /-- The exits in sight. -/
  exits : List String := []
  guidance : Option String := none
  deriving DecidableEq, Repr

def Scene.here (v : View) : Scene :=
  let here := v.state.location
  match v.location? here with
  | none => { name := here }
  | some d =>
    { name := d.name
      description := d.description
      characters := (v.charactersAt here).map (·.name)
      items := (v.itemsAt here).map (·.name)
      exits := ((v.exitsFrom here).filter v.exitVisible).map (exitLabel v)
      guidance := d.narrative }

/-- A closer look at one entity. -/
structure Examined where
  kind : Option EntityKind := none
  name : String := ""
  description : String := ""
  guidance : Option String := none
  deriving DecidableEq, Repr

def Examined.of (v : View) (key : EntityKey) : Examined :=
  let (description, guidance) := match v.resolve? key with
    | some (.location d) => (d.description, d.narrative)
    | some (.item d) => (d.description, d.narrative)
    | some (.character d) => (d.description, d.narrative)
    | some (.exit d) => (d.description, d.narrative)
    | none => ("", none)
  { kind := some key.kind, name := v.displayName key, description, guidance }

structure VictoryNote where
  id : EntityId
  narrative : Option String := none
  deriving DecidableEq, Repr

/-- Everything needed to tell one committed turn. -/
structure Request where
  turn : UInt64 := 0
  prior : Prior := {}
  /-- What the player did, in words. -/
  action : String := ""
  effects : List ToldEffect := []
  beats : List FiredBeat := []
  transition : Option Transition := none
  response : Option String := none
  /-- The scene, when the player came somewhere or looked around. -/
  scene : Option Scene := none
  examined : Option Examined := none
  victory : Option VictoryNote := none
  deriving DecidableEq, Repr

end Storyworld.Narration
