import Storyworld.SortedMap
import Storyworld.Condition
import Storyworld.Effect

/-!
# Definitions

What an author writes: one structure per kind of entity, the sections about the world as a whole,
and the document that gathers them. A world may be spread over several documents, which `merge`
appends section by section. `Definition` gives what all kinds share: a kind, an identifier and a
name to show.
-/

namespace Storyworld

/-- What every kind of definition has. -/
class Definition (α : Type) where
  kind : EntityKind
  id : α → EntityId
  /-- The name shown to the player. -/
  displayName : α → String := id

def Definition.key {α : Type} [Definition α] (d : α) : EntityKey :=
  ⟨Definition.kind α, Definition.id d⟩

structure WorldInfo where
  title : String
  /-- The version that saves record. -/
  version : String := "1.0"
  description : String := ""
  deriving DecidableEq, Repr, Inhabited

/-- How a session starts. -/
structure Start where
  location : EntityId
  /-- The first act; without it, the first one declared. -/
  act : Option EntityId := none
  inventory : List EntityId := []
  deriving DecidableEq, Repr, Inhabited

structure Location where
  id : EntityId
  name : String
  description : String := ""
  aliases : List String := []
  narrative : Option String := none
  deriving DecidableEq, Repr, Inhabited

structure Item where
  id : EntityId
  name : String
  description : String := ""
  aliases : List String := []
  location : Option EntityId := none
  /-- The character who holds it. -/
  holder : Option EntityId := none
  portable : Bool := true
  /-- A critical item is never taken from the player. -/
  critical : Bool := false
  narrative : Option String := none
  deriving DecidableEq, Repr, Inhabited

structure Character where
  id : EntityId
  name : String
  description : String := ""
  aliases : List String := []
  location : Option EntityId := none
  counters : SortedMap String Count := .empty
  narrative : Option String := none
  deriving DecidableEq, Inhabited

/-- A passage, one way. -/
structure Exit where
  id : EntityId
  origin : EntityId
  destination : EntityId
  direction : Option String := none
  /-- Phrases that take the exit. -/
  triggers : List String := []
  description : String := ""
  locked : Bool := false
  hidden : Bool := false
  visibleWhen : Option Condition := none
  openWhen : Option Condition := none
  /-- What the player is told at a locked exit. -/
  lockedMessage : Option String := none
  narrative : Option String := none
  deriving Inhabited

/-- What makes an interaction run. -/
inductive InteractionKind
  /-- Its own phrases only. -/
  | interact
  | examine | take | use | talk
  deriving DecidableEq, Repr, Inhabited

namespace InteractionKind

def all : List InteractionKind := [interact, examine, take, use, talk]

def name : InteractionKind → String
  | interact => "interact"
  | examine => "examine"
  | take => "take"
  | use => "use"
  | talk => "talk"

end InteractionKind

/-- An authored action. -/
structure Interaction where
  id : EntityId
  kind : InteractionKind := .interact
  /-- Phrases that run it. -/
  triggers : List String := []
  /-- The only place where it is offered. -/
  location : Option EntityId := none
  /-- What is examined, talked to or used upon. -/
  target : Option EntityKey := none
  /-- The item taken or used. -/
  item : Option EntityId := none
  requires : Option Condition := none
  /-- What the player is told while the requirement fails. -/
  refusal : Option String := none
  effects : List Effect := []
  response : Option String := none
  repeatable : Bool := false
  narrative : Option String := none
  deriving Inhabited

structure Beat where
  id : EntityId
  name : Option String := none
  trigger : Condition := .always
  effects : List Effect := []
  /-- A repeatable beat fires whenever its trigger comes to hold. -/
  repeatable : Bool := false
  narrative : Option String := none
  deriving Inhabited

/-- An objective of an act. -/
structure Spoke where
  id : EntityId
  act : EntityId
  name : Option String := none
  condition : Condition
  deriving Inhabited

/-- How the sets of an act combine with those before it. -/
inductive ActMode
  | additive | replace
  deriving DecidableEq, Repr, Inhabited

namespace ActMode

def all : List ActMode := [additive, replace]

def name : ActMode → String
  | additive => "additive"
  | replace => "replace"

end ActMode

/-- A stretch of the story and what is within reach in it. -/
structure Act where
  id : EntityId
  name : Option String := none
  locations : List EntityId := []
  characters : List EntityId := []
  mode : ActMode := .additive
  excludeLocations : List EntityId := []
  excludeCharacters : List EntityId := []
  /-- When the act is over; without it, when all its spokes are satisfied. -/
  gate : Option Condition := none
  /-- The beat that fires when the act is left. -/
  gateBeat : Option EntityId := none
  narrative : Option String := none
  deriving Inhabited

/-- A way to win. -/
structure Victory where
  id : EntityId
  condition : Condition
  narrative : Option String := none
  deriving Inhabited

/-- New names for old identifiers. -/
structure RenameTable where
  locations : SortedMap String String := .empty
  items : SortedMap String String := .empty
  characters : SortedMap String String := .empty
  exits : SortedMap String String := .empty
  interactions : SortedMap String String := .empty
  beats : SortedMap String String := .empty
  spokes : SortedMap String String := .empty
  acts : SortedMap String String := .empty
  flags : SortedMap String String := .empty
  deriving DecidableEq, Inhabited

/-- The renames of a kind; victories are never renamed. -/
def RenameTable.ofKind (t : RenameTable) : EntityKind → SortedMap String String
  | .location => t.locations
  | .item => t.items
  | .character => t.characters
  | .exit => t.exits
  | .interaction => t.interactions
  | .beat => t.beats
  | .spoke => t.spokes
  | .act => t.acts
  | .victory => .empty

/-- How a save of an older version is carried over. -/
structure MigrationRule where
  /-- The version it applies to. -/
  version : String
  rename : RenameTable := {}
  dropFlags : List String := []
  /-- Where the player is put if the location is gone. -/
  relocate : Option EntityId := none
  /-- Drop what refers to entities that are gone. -/
  discardMissing : Bool := false
  deriving DecidableEq, Inhabited

instance : Definition Location := { kind := .location, id := (·.id), displayName := (·.name) }
instance : Definition Item := { kind := .item, id := (·.id), displayName := (·.name) }
instance : Definition Character := { kind := .character, id := (·.id), displayName := (·.name) }
instance : Definition Exit := { kind := .exit, id := (·.id) }
instance : Definition Interaction := { kind := .interaction, id := (·.id) }
instance : Definition Beat :=
  { kind := .beat, id := (·.id), displayName := fun b => b.name.getD b.id }
instance : Definition Spoke :=
  { kind := .spoke, id := (·.id), displayName := fun s => s.name.getD s.id }
instance : Definition Act :=
  { kind := .act, id := (·.id), displayName := fun a => a.name.getD a.id }
instance : Definition Victory := { kind := .victory, id := (·.id) }

/-- A section that a world declares once. -/
inductive SingleSection
  | world | start
  deriving DecidableEq, Repr

def SingleSection.name : SingleSection → String
  | world => "world"
  | start => "start"

structure WorldDocument where
  world : Option WorldInfo := none
  start : Option Start := none
  locations : List Location := []
  items : List Item := []
  characters : List Character := []
  exits : List Exit := []
  interactions : List Interaction := []
  /-- In the order in which they fire. -/
  beats : List Beat := []
  spokes : List Spoke := []
  /-- In the order of the story. -/
  acts : List Act := []
  victory : List Victory := []
  migrations : List MigrationRule := []
  deriving Inhabited

namespace WorldDocument

/-- Appends the sections of a document. A section that both declare once stays as it was. -/
def merge (a b : WorldDocument) : WorldDocument where
  world := a.world <|> b.world
  start := a.start <|> b.start
  locations := a.locations ++ b.locations
  items := a.items ++ b.items
  characters := a.characters ++ b.characters
  exits := a.exits ++ b.exits
  interactions := a.interactions ++ b.interactions
  beats := a.beats ++ b.beats
  spokes := a.spokes ++ b.spokes
  acts := a.acts ++ b.acts
  victory := a.victory ++ b.victory
  migrations := a.migrations ++ b.migrations

def clashes (a b : WorldDocument) : List SingleSection :=
  (if a.world.isSome && b.world.isSome then [.world] else []) ++
  (if a.start.isSome && b.start.isSome then [.start] else [])

/-- Merges documents in order, with the clashes met on the way. -/
def mergeAll (docs : List WorldDocument) : WorldDocument × List SingleSection :=
  docs.foldl (fun (acc, dups) doc => (acc.merge doc, dups ++ acc.clashes doc)) ({}, [])

end WorldDocument
end Storyworld
