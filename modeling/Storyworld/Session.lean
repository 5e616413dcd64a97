import Storyworld.Save
import Storyworld.Turn

/-!
# Sessions

One player's game on a catalog: a state that goes from turn to turn, and what can be asked of it
between turns. A session can be captured in a save and resumed from one.
-/

namespace Storyworld

/-- One player's game. -/
structure Session where
  id : SessionId
  catalog : Catalog
  settings : Settings
  state : State
  deriving Inhabited

/-- How far the player is with one spoke of the current act. -/
structure SpokeProgress where
  name : String
  completed : Bool
  deriving DecidableEq, Repr

structure SessionStatus where
  id : SessionId
  turn : UInt64
  /-- The name of the player's location. -/
  location : String
  /-- The name of the current act. -/
  act : String
  spokes : List SpokeProgress
  /-- The names of the carried items. -/
  inventory : List String
  victory : Option EntityId
  deriving DecidableEq, Repr

namespace Session

def start (id : SessionId) (c : Catalog) (settings : Settings) : Session :=
  ⟨id, c, settings, .initial c⟩

def resume (c : Catalog) (settings : Settings) (save : Save) : Except RestoreError Session :=
  match save.restore c with
  | .error e => .error e
  | .ok state => .ok ⟨save.sessionId, c, settings, state⟩

def save (s : Session) (now : Instant) : Save := .capture s.id now s.catalog s.state

def view (s : Session) : View := ⟨s.catalog, s.state⟩

/-- Plays one line of the player. -/
def play (s : Session) (companions : Companions) (input : String) : Played :=
  playTurn s.catalog s.settings companions s.state input

/-- The session after a turn that was played. -/
def after (s : Session) (p : Played) : Session := { s with state := p.state }

def describeHere (s : Session) : String := s.settings.narrator.scene (.here s.view)

def inventoryListing (s : Session) : String := s.settings.narrator.inventory s.view.inventoryNames

def status (s : Session) : SessionStatus where
  id := s.id
  turn := s.state.turn
  location := s.view.displayName (.location s.state.location)
  act := s.view.actName
  spokes := (s.catalog.spokesOf s.state.act).map fun d =>
    { name := d.name.getD d.id, completed := s.view.spokeRecorded d.id }
  inventory := s.view.inventoryNames
  victory := s.state.victory

end Session
end Storyworld
