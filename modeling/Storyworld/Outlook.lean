import Storyworld.Acts

/-!
# Outlook

Can the player still win? An outlook collects what may still come about from a state: flags that may
be set, items that may be had, places that may be visited, exits that may open, and so on.
Interactions and beats whose conditions may hold give their effects, and this goes on until nothing
new is learned. It looks at the future through rose-coloured glasses: negations may always come to
hold and nothing is ever lost. It is meant to accept every condition that can still come to hold, so
that one which it does not accept is out of reach.
-/

namespace Storyworld

/-- What may still come about from a state. -/
structure Outlook where
  /-- The position of the furthest act that may be reached. -/
  furthestAct : Nat
  /-- Locations within the bounds of the acts that may be reached. -/
  bounds : List EntityId
  visitable : List EntityId
  /-- Flags that may be truthy. -/
  truthyFlags : List String
  flagValues : List (String × FlagValue)
  obtainable : List EntityId
  /-- Items and the locations in which they may be put. -/
  placements : List (EntityId × EntityId)
  /-- Characters and the locations to which they may move. -/
  moves : List (EntityId × EntityId)
  /-- Exits that may be unlocked. -/
  opened : List EntityId
  /-- Exits that may be revealed. -/
  shown : List EntityId
  /-- Counters that may go up. -/
  raised : List (EntityId × String)
  /-- Counters that may go down. -/
  lowered : List (EntityId × String)
  /-- Counters and the values to which they may be set. -/
  counterValues : List (EntityId × String × Count)
  spokes : List EntityId
  beats : List EntityId
  interactions : List EntityId
  deriving DecidableEq, Inhabited

namespace Outlook

def addAll {α : Type} [BEq α] (l : List α) (new : List α) : List α :=
  new.foldl (fun l a => l.insert a) l

/-- What is so already. -/
def initial (v : View) : Outlook where
  furthestAct := (v.catalog.acts.position? v.state.act).getD 0
  bounds := v.reachableLocations.toList
  visitable := [v.state.location]
  truthyFlags := []
  flagValues := []
  obtainable := addAll [] v.state.inventory
  placements := []
  moves := []
  opened := []
  shown := []
  raised := []
  lowered := []
  counterValues := []
  spokes := v.state.completedSpokes.toList
  beats := addAll [] v.state.firedBeats
  interactions := v.state.usedInteractions.toList

/-- How much is known. -/
def size (o : Outlook) : Nat :=
  o.furthestAct + o.bounds.length + o.visitable.length + o.truthyFlags.length +
  o.flagValues.length + o.obtainable.length + o.placements.length + o.moves.length +
  o.opened.length + o.shown.length + o.raised.length + o.lowered.length +
  o.counterValues.length + o.spokes.length + o.beats.length + o.interactions.length

variable (v : View) (o : Outlook)

/-! ### What may hold -/

/-- Whether a counter may come to compare so. An exact value may be met when the counter can move
towards it. -/
def counterMay (character : EntityId) (name : String) (cmp : Comparison) (value : Count) : Bool :=
  let key := (character, name)
  let up := o.raised.contains key
  let down := o.lowered.contains key
  let starts := v.counter character name ::
    ((o.counterValues.filter fun e => e.1 == character && e.2.1 == name).map (·.2.2))
  let reach (extreme : Count) (toward : Bool) : Bool :=
    if cmp = .eq then toward else cmp.holds extreme value
  starts.any fun start =>
    cmp.holds start value ||
    (up && reach Count.greatest (start < value)) ||
    (down && reach Count.least (value < start))

/-- Whether an atom that does not hold now may come to hold, given which spokes may. -/
def mayLater (spoke : EntityId → Bool) : Atom → Bool
  | .flag name => o.truthyFlags.contains name
  | .flagEquals name value => o.flagValues.contains (name, value)
  | .hasItem item => o.obtainable.contains item
  | .itemAt item location =>
    o.placements.contains (item, location) ||
      (o.obtainable.contains item && o.visitable.contains location)
  | .at location => o.visitable.contains location
  | .counter character name cmp value => o.counterMay v character name cmp value
  | .spoke s => spoke s
  | .beatFired b => o.beats.contains b
  | .actReached a => (v.catalog.acts.position? a).any (· ≤ o.furthestAct)
  | .interactionUsed i => o.interactions.contains i

/-- Whether an atom may hold inside the condition of a spoke, which follows no further spokes. -/
def mayInSpoke (a : Atom) : Bool := v.holdsAtom a || o.mayLater v o.spokes.contains a

def mayAtom (a : Atom) : Bool :=
  v.holdsAtom a ||
    o.mayLater v (fun s => o.spokes.contains s ||
      (v.catalog.spokes.get? s).any fun d => d.condition.possible (o.mayInSpoke v)) a

/-- Whether a condition may hold, now or later. -/
def may (c : Condition) : Bool := c.possible (o.mayAtom v)

def may? (c : Option Condition) : Bool := c.all (o.may v)

/-- Whether an item lies where the player may come. -/
def liesVisitable (item : EntityId) : Bool :=
  (v.placement item).location?.any o.visitable.contains

/-- Whether an entity may come to be there for the player to act on. -/
def reachableTarget (key : EntityKey) : Bool :=
  match key.kind with
  | .item => o.obtainable.contains key.id || o.liesVisitable v key.id
  | .character =>
    ((v.character? key.id).bind (·.location)).any o.visitable.contains ||
      o.moves.any fun m => m.1 == key.id && o.visitable.contains m.2
  | .location => o.visitable.contains key.id
  | .exit => (v.catalog.exits.get? key.id).any fun e => o.visitable.contains e.origin
  | _ => true

/-- Whether the item of an interaction may come to hand. -/
def itemReady (d : Interaction) (item : EntityId) : Bool :=
  o.obtainable.contains item || (d.kind == .use && o.liesVisitable v item)

def mayRun (d : Interaction) : Bool :=
  d.location.all o.visitable.contains &&
  o.may? v d.requires &&
  (d.kind == .interact || d.item.all (o.itemReady v d)) &&
  d.target.all (o.reachableTarget v)

/-- Whether an act may come to be over. -/
def gateMayHold (a : Act) : Bool :=
  match a.gate with
  | some gate => o.may v gate
  | none =>
    let spokes := v.catalog.spokesOf a.id
    !spokes.isEmpty && spokes.all fun d => o.mayAtom v (.spoke d.id)

/-- Whether the player may come to walk through an exit. -/
def mayPass (e : Exit) : Bool :=
  (!e.hidden || o.shown.contains e.id) && o.may? v e.visibleWhen &&
  (!e.locked || o.opened.contains e.id) && o.may? v e.openWhen

/-! ### Learning -/

/-- Takes in the locations of the next acts, as many as given. -/
def openActs (o : Outlook) : Nat → Outlook
  | 0 => o
  | n + 1 =>
    let o := { o with furthestAct := o.furthestAct + 1 }
    match v.catalog.acts.toList[o.furthestAct]? with
    | none => o
    | some a => openActs { o with bounds := addAll o.bounds a.locations } n

def openThrough (position : Nat) : Outlook := o.openActs v (position - o.furthestAct)

/-- Takes in what an effect may bring about. What it may undo is ignored. -/
def absorb (o : Outlook) : Effect → Outlook
  | .setFlag flag value =>
    { o with
      truthyFlags := if value.isTruthy then o.truthyFlags.insert flag else o.truthyFlags
      flagValues := o.flagValues.insert (flag, value) }
  | .giveItem item =>
    if v.placement item = .destroyed then o
    else { o with obtainable := o.obtainable.insert item }
  | .placeItem item location => { o with placements := o.placements.insert (item, location) }
  | .movePlayer location => { o with visitable := o.visitable.insert location }
  | .moveCharacter character location => { o with moves := o.moves.insert (character, location) }
  | .adjustCounter character name change =>
    if 0 < change then { o with raised := o.raised.insert (character, name) }
    else if change < 0 then { o with lowered := o.lowered.insert (character, name) }
    else o
  | .setCounter character name value =>
    { o with counterValues := o.counterValues.insert (character, name, value) }
  | .lockExit exit false => { o with opened := o.opened.insert exit }
  | .hideExit exit false => { o with shown := o.shown.insert exit }
  | .completeSpoke spoke => { o with spokes := o.spokes.insert spoke }
  | .advanceAct act =>
    match v.catalog.acts.position? act with
    | some i => o.openThrough v i
    | none => o
  | .clearFlag _ | .removeItem _ | .destroyItem _ | .handItem _ _ | .lockExit _ true
  | .hideExit _ true | .describe _ _ => o

def absorbAll (effects : List Effect) : Outlook := effects.foldl (absorb v) o

def walkExits : Outlook :=
  let ways := v.catalog.exits.toList.filter fun d =>
    o.visitable.contains d.origin && o.bounds.contains d.destination &&
      (v.exit? d.id).any (o.mayPass v)
  { o with visitable := addAll o.visitable (ways.map (·.destination)) }

/-- Picks up what lies, or may be put, where the player may come. -/
def collectItems : Outlook :=
  let lying := (v.catalog.items.toList.filter fun d => d.portable && o.liesVisitable v d.id).map
    (·.id)
  let placed := (o.placements.filter fun p =>
    o.visitable.contains p.2 && v.catalog.isPortable p.1).map (·.1)
  { o with obtainable := addAll (addAll o.obtainable lying) placed }

/-- The interactions that may run and have not been taken in, unless they repeat. -/
def newInteractions : List Interaction :=
  v.catalog.interactions.toList.filter fun d =>
    (d.repeatable || !(o.interactions.contains d.id || v.state.usedInteractions.contains d.id)) &&
      o.mayRun v d

/-- Runs the interactions that may run. -/
def runInteractions : Outlook :=
  let ran := o.newInteractions v
  let o := o.absorbAll v (ran.flatMap (·.effects))
  { o with interactions := addAll o.interactions (ran.map (·.id)) }

def newBeats : List Beat :=
  v.catalog.beats.toList.filter fun b =>
    !v.catalog.isGateBeat b.id && !o.beats.contains b.id &&
      (b.repeatable || !v.state.firedBeats.contains b.id) && o.may v b.trigger

def runBeats : Outlook :=
  let fired := o.newBeats v
  let o := o.absorbAll v (fired.flatMap (·.effects))
  { o with beats := addAll o.beats (fired.map (·.id)) }

/-- Leaves the furthest act if its gate may hold and there is a next one. -/
def passGates : Outlook :=
  match v.catalog.acts.toList[o.furthestAct]? with
  | none => o
  | some a =>
    if (v.catalog.nextAct? a.id).isNone || !o.gateMayHold v a then o
    else
      let o' := match (a.gateBeat.bind v.catalog.beats.get?).filter fun b =>
          !o.beats.contains b.id with
        | some b =>
          let o' := o.absorbAll v b.effects
          { o' with beats := o'.beats.insert b.id }
        | none => o
      o'.openThrough v (o'.furthestAct + 1)

def round : Outlook :=
  ((((o.walkExits v).collectItems v).runInteractions v).runBeats v).passGates v

/-- Rounds until one brings nothing new, at most as many as given. -/
def settle (o : Outlook) : Nat → Outlook
  | 0 => o
  | n + 1 =>
    let next := o.round v
    if next.size = o.size then next else settle next n

end Outlook

/-- No more can be learned of a catalog than its exits, items, effects, interactions, beats, acts
and their locations tell. -/
def Catalog.knowable (c : Catalog) : Nat :=
  let effects := c.interactions.toList.flatMap (·.effects) ++ c.beats.toList.flatMap (·.effects)
  c.exits.size + c.items.size + 2 * effects.length + c.interactions.size + c.beats.size +
  c.acts.size + (c.acts.toList.flatMap (·.locations)).length

/-- Everything that may still come about. -/
def Outlook.explore (v : View) : Outlook := (Outlook.initial v).settle v (v.catalog.knowable + 1)

/-- Whether a victory may still be reached. It may in a world without victories and in a session
that is won. -/
def View.canWin (v : View) : Bool :=
  let victories := v.catalog.victory.toList
  victories.isEmpty || v.state.victory.isSome || victories.any (fun d => v.holds d.condition) ||
    (let o := Outlook.explore v
     victories.any fun d => o.may v d.condition)

end Storyworld
