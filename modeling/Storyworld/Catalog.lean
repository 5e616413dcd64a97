import Storyworld.Table
import Storyworld.Placement

/-!
# Catalogs

The definitions of a whole world, indexed by kind. A catalog never changes; what play changes is
kept in the session's state. Here are the look-ups that need nothing but the definitions: names,
where an item starts, and how the acts follow one another.
-/

namespace Storyworld

/-- All definitions of a world. -/
structure Catalog where
  info : WorldInfo
  start : Start
  /-- The act in which every session starts. -/
  initialAct : EntityId
  locations : Table Location
  items : Table Item
  characters : Table Character
  exits : Table Exit
  interactions : Table Interaction
  beats : Table Beat
  spokes : Table Spoke
  acts : Table Act
  victory : Table Victory
  migrations : List MigrationRule
  deriving Inhabited

namespace Catalog

def version (c : Catalog) : String := c.info.version

def contains (c : Catalog) (key : EntityKey) : Bool :=
  match key.kind with
  | .location => c.locations.contains key.id
  | .item => c.items.contains key.id
  | .character => c.characters.contains key.id
  | .exit => c.exits.contains key.id
  | .interaction => c.interactions.contains key.id
  | .beat => c.beats.contains key.id
  | .spoke => c.spokes.contains key.id
  | .act => c.acts.contains key.id
  | .victory => c.victory.contains key.id

def displayName? (c : Catalog) (key : EntityKey) : Option String :=
  match key.kind with
  | .location => (c.locations.get? key.id).map Definition.displayName
  | .item => (c.items.get? key.id).map Definition.displayName
  | .character => (c.characters.get? key.id).map Definition.displayName
  | .exit => (c.exits.get? key.id).map Definition.displayName
  | .interaction => (c.interactions.get? key.id).map Definition.displayName
  | .beat => (c.beats.get? key.id).map Definition.displayName
  | .spoke => (c.spokes.get? key.id).map Definition.displayName
  | .act => (c.acts.get? key.id).map Definition.displayName
  | .victory => (c.victory.get? key.id).map Definition.displayName

/-- The name of an entity; an undeclared one is shown by its identifier. -/
def displayName (c : Catalog) (key : EntityKey) : String := (c.displayName? key).getD key.id

/-- Where an item is before anything has moved it. -/
def initialPlacement (c : Catalog) (item : EntityId) : Placement :=
  if c.start.inventory.contains item then .carried
  else
    match c.items.get? item with
    | none => .limbo
    | some d =>
      match d.location, d.holder with
      | some l, _ => .location l
      | none, some h => .holder h
      | none, none => .limbo

def isCritical (c : Catalog) (item : EntityId) : Bool := (c.items.get? item).any (·.critical)

/-- Whether the item is declared and can be picked up. -/
def isPortable (c : Catalog) (item : EntityId) : Bool := (c.items.get? item).any (·.portable)

/-- The authored value of a counter; one that is not authored is zero. -/
def authoredCounter (c : Catalog) (character : EntityId) (name : String) : Count :=
  ((c.characters.get? character).bind (·.counters.get? name)).getD 0

/-- The act after this one. -/
def nextAct? (c : Catalog) (act : EntityId) : Option Act :=
  (c.acts.position? act).bind fun i => c.acts.toList[i + 1]?

/-- The acts from the first of the session up to this one; none if it comes earlier. -/
def actsThrough (c : Catalog) (act : EntityId) : List Act :=
  let first := (c.acts.position? c.initialAct).getD 0
  match c.acts.position? act with
  | none => []
  | some last => (c.acts.toList.take (last + 1)).drop first

def spokesOf (c : Catalog) (act : EntityId) : List Spoke := c.spokes.toList.filter (·.act == act)

/-- Whether some act is left through this beat. -/
def isGateBeat (c : Catalog) (beat : EntityId) : Bool :=
  c.acts.toList.any (·.gateBeat == some beat)

/-- The rule that carries saves of a version over. -/
def migrationFrom? (c : Catalog) (version : String) : Option MigrationRule :=
  c.migrations.find? (·.version == version)

def counts (c : Catalog) : List (EntityKind × Nat) :=
  [(.location, c.locations.size), (.item, c.items.size), (.character, c.characters.size),
   (.exit, c.exits.size), (.interaction, c.interactions.size), (.beat, c.beats.size),
   (.spoke, c.spokes.size), (.act, c.acts.size), (.victory, c.victory.size)]

def entityCount (c : Catalog) : Nat := c.counts.foldr (fun e n => e.2 + n) 0

end Catalog
end Storyworld
