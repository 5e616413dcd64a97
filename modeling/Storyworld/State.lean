import Storyworld.Catalog
import Storyworld.SortedSet

/-!
# Session state

Everything that changes during play. The state copies nothing from the catalog: overrides and
counters hold only what differs from the authored world, so setting a field back to its authored
value takes the override away, and an override without fields is dropped.
-/

namespace Storyworld

/-- The state of one session. -/
structure State where
  /-- The number of turns taken. -/
  turn : UInt64
  location : EntityId
  /-- Carried items, in the order in which they were picked up. -/
  inventory : List EntityId
  flags : SortedMap String FlagValue
  /-- Counters that differ from the authored ones, by character. -/
  counters : SortedMap EntityId (SortedMap String Count)
  /-- Entities that differ from the authored ones. -/
  overrides : SortedMap EntityKey Override
  act : EntityId
  /-- The acts entered so far, in order. -/
  reachedActs : List EntityId
  completedSpokes : SortedSet EntityId
  /-- The beats that have fired, in the order of their first firing. -/
  firedBeats : List EntityId
  /-- Repeatable beats whose trigger held when it was last looked at. -/
  latchedBeats : SortedSet EntityId
  usedInteractions : SortedSet EntityId
  victory : Option EntityId
  deriving DecidableEq, Inhabited

namespace State

def initial (c : Catalog) : State where
  turn := 0
  location := c.start.location
  inventory := c.start.inventory
  flags := .empty
  counters := .empty
  overrides := .empty
  act := c.initialAct
  reachedActs := [c.initialAct]
  completedSpokes := .empty
  firedBeats := []
  latchedBeats := .empty
  usedInteractions := .empty
  victory := none

/-! ### Reading -/

def hasItem (s : State) (item : EntityId) : Bool := s.inventory.contains item

/-- The counter, if it differs from the authored one. -/
def counterOverride? (s : State) (character : EntityId) (name : String) : Option Count :=
  (s.counters.get? character).bind (·.get? name)

/-- The number of changed fields over all entities. -/
def overriddenFields (s : State) : Nat := s.overrides.values.foldr (fun o n => o.fieldCount + n) 0

/-! ### The player -/

def advanceTurn (s : State) : State := { s with turn := s.turn + 1 }

def setLocation (s : State) (location : EntityId) : State := { s with location }

/-- Adds an item at the end of the inventory, unless it is carried. -/
def addItem (s : State) (item : EntityId) : State :=
  if s.hasItem item then s else { s with inventory := s.inventory ++ [item] }

/-- Takes an item out of the inventory. -/
def removeItem (s : State) (item : EntityId) : State :=
  { s with inventory := s.inventory.filter (· != item) }

def setFlag (s : State) (name : String) (value : FlagValue) : State :=
  { s with flags := s.flags.insert name value }

def clearFlag (s : State) (name : String) : State := { s with flags := s.flags.erase name }

/-! ### Entities -/

/-- Sets a counter; the authored value leaves no override. -/
def setCounter (s : State) (c : Catalog) (character : EntityId) (name : String) (value : Count) :
    State :=
  if value = c.authoredCounter character name then
    match s.counters.get? character with
    | none => s
    | some own =>
      let rest := own.erase name
      if rest.isEmpty then { s with counters := s.counters.erase character }
      else { s with counters := s.counters.insert character rest }
  else
    let own := (s.counters.get? character).getD .empty
    { s with counters := s.counters.insert character (own.insert name value) }

/-- Changes the override of an entity, made anew if there is none; without fields it is dropped. -/
def updateOverride (s : State) (key : EntityKey) (change : Override → Override) : State :=
  match s.overrides.get? key <|> Override.empty? key.kind with
  | none => s
  | some old =>
    let new := change old
    if new.isEmpty then { s with overrides := s.overrides.erase key }
    else { s with overrides := s.overrides.insert key new }

/-- A value that differs from the authored one. -/
def differing {α : Type} [DecidableEq α] (authored : Option α) (value : α) : Option α :=
  if authored = some value then none else some value

def setPlacement (s : State) (c : Catalog) (item : EntityId) (p : Placement) : State :=
  s.updateOverride (.item item) (·.withPlacement (differing (some (c.initialPlacement item)) p))

def moveCharacter (s : State) (c : Catalog) (character location : EntityId) : State :=
  let authored := (c.characters.get? character).bind (·.location)
  s.updateOverride (.character character) (·.withLocation (differing authored location))

def setLocked (s : State) (c : Catalog) (exit : EntityId) (locked : Bool) : State :=
  let authored := (c.exits.get? exit).any (·.locked)
  s.updateOverride (.exit exit) (·.withLocked (differing (some authored) locked))

def setHidden (s : State) (c : Catalog) (exit : EntityId) (hidden : Bool) : State :=
  let authored := (c.exits.get? exit).any (·.hidden)
  s.updateOverride (.exit exit) (·.withHidden (differing (some authored) hidden))

end State

/-- The authored description of an entity that has one. -/
def Catalog.authoredDescription? (c : Catalog) (key : EntityKey) : Option String :=
  match key.kind with
  | .location => (c.locations.get? key.id).map (·.description)
  | .item => (c.items.get? key.id).map (·.description)
  | .character => (c.characters.get? key.id).map (·.description)
  | .exit => (c.exits.get? key.id).map (·.description)
  | _ => none

namespace State

/-- Replaces a description. Entities of the other kinds are left alone. -/
def describe (s : State) (c : Catalog) (key : EntityKey) (text : String) : State :=
  if key.kind.overridable then
    s.updateOverride key (·.withDescription (differing (c.authoredDescription? key) text))
  else s

/-! ### Progress -/

/-- Makes the act current and, if it is new, the last one reached. -/
def enterAct (s : State) (act : EntityId) : State :=
  { s with
    act
    reachedActs := if s.reachedActs.contains act then s.reachedActs else s.reachedActs ++ [act] }

def completeSpoke (s : State) (spoke : EntityId) : State :=
  { s with completedSpokes := s.completedSpokes.insert spoke }

def markFired (s : State) (beat : EntityId) : State :=
  if s.firedBeats.contains beat then s else { s with firedBeats := s.firedBeats ++ [beat] }

/-- Sets or clears the latch of a repeatable beat. -/
def setLatch (s : State) (beat : EntityId) (latched : Bool) : State :=
  { s with
    latchedBeats := if latched then s.latchedBeats.insert beat else s.latchedBeats.erase beat }

def markUsed (s : State) (interaction : EntityId) : State :=
  { s with usedInteractions := s.usedInteractions.insert interaction }

def setVictory (s : State) (victory : EntityId) : State := { s with victory := some victory }

end State
end Storyworld
