import Storyworld.State

/-!
# Views

What is true now: the authored world as the state changes it. A view answers for every entity with
its effective definition, evaluates conditions, and lists what is around the player. An entity
without override resolves to its definition.

A spoke is satisfied once it is recorded, or while its condition holds. The condition of a spoke
asks about no spoke in a sound catalog; `holds` follows a spoke once, and inside its condition takes
the recorded spokes alone.
-/

namespace Storyworld

/-- A catalog and the state of a session played in it. -/
structure View where
  catalog : Catalog
  state : State
  deriving Inhabited

/-- An entity as it is now. -/
inductive Resolved
  | location (d : Location)
  | item (d : Item)
  | character (d : Character)
  | exit (d : Exit)

namespace View

variable (v : View)

/-! ### Effective entities -/

def override? (key : EntityKey) : Option Override := v.state.overrides.get? key

def location? (id : EntityId) : Option Location :=
  (v.catalog.locations.get? id).map fun d =>
    { d with
      description :=
        ((v.override? (.location id)).bind Override.description?).getD d.description }

/-- The item as it is now; its location and holder are those of its placement. -/
def item? (id : EntityId) : Option Item :=
  (v.catalog.items.get? id).map fun d =>
    match v.override? (.item id) with
    | some (.item placement description) =>
      let d := match placement with
        | some p => { d with location := p.location?, holder := p.holder? }
        | none => d
      { d with description := description.getD d.description }
    | _ => d

/-- The character as it is now, with the counters of the session. -/
def character? (id : EntityId) : Option Character :=
  (v.catalog.characters.get? id).map fun d =>
    let d := match v.override? (.character id) with
      | some (.character location description) =>
        { d with
          location := location <|> d.location
          description := description.getD d.description }
      | _ => d
    let own := ((v.state.counters.get? id).getD .empty).toList
    { d with counters := own.foldl (fun m e => m.insert e.1 e.2) d.counters }

def exit? (id : EntityId) : Option Exit :=
  (v.catalog.exits.get? id).map fun d =>
    match v.override? (.exit id) with
    | some (.exit locked hidden description) =>
      { d with
        locked := locked.getD d.locked
        hidden := hidden.getD d.hidden
        description := description.getD d.description }
    | _ => d

/-- Any entity that has a view of its own. -/
def resolve? (key : EntityKey) : Option Resolved :=
  match key.kind with
  | .location => (v.location? key.id).map .location
  | .item => (v.item? key.id).map .item
  | .character => (v.character? key.id).map .character
  | .exit => (v.exit? key.id).map .exit
  | _ => none

def displayName (key : EntityKey) : String := v.catalog.displayName key

/-! ### Questions -/

def flagIsSet (flag : String) : Bool := (v.state.flags.get? flag).any FlagValue.isTruthy

/-- The placement on record: the override, else the authored one. -/
def recordedPlacement (item : EntityId) : Placement :=
  ((v.override? (.item item)).bind Override.placement?).getD (v.catalog.initialPlacement item)

/-- Where an item is now. What is in the inventory is carried; what is on record as carried and is
not there has left play. -/
def placement (item : EntityId) : Placement :=
  if v.state.hasItem item then .carried
  else
    match v.recordedPlacement item with
    | .carried => .limbo
    | p => p

/-- The value of a counter; one that is nowhere set is zero. -/
def counter (character : EntityId) (name : String) : Count :=
  (v.state.counterOverride? character name).getD (v.catalog.authoredCounter character name)

/-- The answer to an atom, given which spokes are satisfied. -/
def answer (spoke : EntityId → Bool) : Atom → Bool
  | .flag name => v.flagIsSet name
  | .flagEquals name value => v.state.flags.get? name == some value
  | .hasItem item => v.state.hasItem item
  | .itemAt item location => (v.placement item).isIn location
  | .at location => v.state.location == location
  | .counter character name cmp value => cmp.holds (v.counter character name) value
  | .spoke s => spoke s
  | .beatFired b => v.state.firedBeats.contains b
  | .actReached a => v.state.reachedActs.contains a
  | .interactionUsed i => v.state.usedInteractions.contains i

def spokeRecorded (spoke : EntityId) : Bool := v.state.completedSpokes.contains spoke

/-- Whether the spoke is recorded, or its condition holds. -/
def spokeSatisfied (spoke : EntityId) : Bool :=
  v.spokeRecorded spoke ||
    (v.catalog.spokes.get? spoke).any fun d => d.condition.eval (v.answer v.spokeRecorded)

def holdsAtom (a : Atom) : Bool := v.answer v.spokeSatisfied a

/-- Whether a condition holds. -/
def holds (c : Condition) : Bool := c.eval v.holdsAtom

def holds? (c : Option Condition) : Bool := c.all v.holds

def exitVisible (e : Exit) : Bool := !e.hidden && v.holds? e.visibleWhen

def exitOpen (e : Exit) : Bool := !e.locked && v.holds? e.openWhen

/-! ### Surroundings -/

/-- What is within reach after a list of acts, by the sets that each act includes and excludes. -/
def reachableBy (sets : Act → List EntityId × List EntityId) (acts : List Act) :
    SortedSet EntityId :=
  acts.foldl (fun reach a =>
    let base := if a.mode = .replace then .empty else reach
    (base.insertAll (sets a).1).eraseAll (sets a).2) .empty

/-- The acts reached so far that are declared. -/
def reachedActs : List Act := v.state.reachedActs.filterMap v.catalog.acts.get?

def reachableLocations : SortedSet EntityId :=
  reachableBy (fun a => (a.locations, a.excludeLocations)) v.reachedActs

def reachableCharacters : SortedSet EntityId :=
  reachableBy (fun a => (a.characters, a.excludeCharacters)) v.reachedActs

/-- The exits that leave a location, in declaration order. -/
def exitsFrom (location : EntityId) : List Exit :=
  (v.catalog.exits.toList.filter (·.origin == location)).filterMap fun e => v.exit? e.id

def itemsAt (location : EntityId) : List Item :=
  (v.catalog.items.toList.filter fun d => (v.placement d.id).isIn location).filterMap fun d =>
    v.item? d.id

/-- The characters within reach that stand in a location, in declaration order. -/
def charactersAt (location : EntityId) : List Character :=
  let reach := v.reachableCharacters
  ((v.catalog.characters.toList.filter fun d => reach.contains d.id).filterMap fun d =>
    v.character? d.id).filter (·.location == some location)

def inventory : List Item := v.state.inventory.filterMap v.item?

def inventoryNames : List String := v.inventory.map (·.name)

def here? : Option Location := v.location? v.state.location

def actName : String :=
  ((v.catalog.acts.get? v.state.act).bind (·.name)).getD v.state.act

/-- Whether the interaction is offered where the player is. -/
def offers (d : Interaction) : Bool := d.location.all (· == v.state.location)

/-- Whether the interaction, which runs once, has run. -/
def spent (d : Interaction) : Bool := !d.repeatable && v.state.usedInteractions.contains d.id

/-- Whether the interaction could run now, whatever its target. -/
def ready (d : Interaction) : Bool := v.offers d && !v.spent d && v.holds? d.requires

/-- Whether the entity is there for the player to act on. -/
def isPresent (key : EntityKey) : Bool :=
  let here := v.state.location
  match key.kind with
  | .location => key.id == here
  | .item =>
    match v.placement key.id with
    | .carried => true
    | .location l => l == here
    | _ => false
  | .character => (v.charactersAt here).any (·.id == key.id)
  | .exit => (v.exit? key.id).any fun e => e.origin == here && v.exitVisible e
  | _ => false

end View
end Storyworld
