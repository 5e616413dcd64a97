import Storyworld.Catalog

/-!
# Integrity

A document becomes a catalog only if nothing is wrong with it: every reference names a declared
entity of the right kind, no identifier is declared twice, every flag that is read is set somewhere,
and no authored effect takes a critical item away. All problems are collected, in the order of the
sections, so that an author sees them at once.
-/

namespace Storyworld

/-- The part of a world in which a problem was found. -/
inductive Source
  | definition (key : EntityKey)
  | start
  | migration (version : String)
  deriving DecidableEq, Repr

def Source.text : Source → String
  | definition key => key.text
  | start => "start"
  | migration version => "migration from " ++ version

/-- How a definition contradicts itself. -/
inductive Fault
  | twoHomes
  | noWayThrough
  | interactWithoutTrigger
  | withoutItem
  | examineWithoutTarget
  | talkWithoutCharacter
  | sharedGateBeat (beat : EntityId)
  | currentVersion
  | carriedAndPlaced
  | startOutOfReach
  | fixedDescription (kind : EntityKind)
  deriving DecidableEq, Repr

def Fault.text : Fault → String
  | twoHomes => "declares both a location and a holder"
  | noWayThrough => "needs a direction or at least one trigger phrase"
  | interactWithoutTrigger => "interact needs at least one trigger phrase"
  | withoutItem => "take/use needs an `item`"
  | examineWithoutTarget => "examine needs a `target`"
  | talkWithoutCharacter => "talk needs a character `target`"
  | sharedGateBeat beat => "gate beat `" ++ beat ++ "` is shared with another act"
  | currentVersion => "migrates from the current version"
  | carriedAndPlaced => "starts in the inventory but also declares a location or holder"
  | startOutOfReach => "start location is not reachable in the initial act"
  | fixedDescription kind => "cannot describe a " ++ kind.name

inductive Problem
  /-- A field names an entity that is not declared. -/
  | unresolved (source : Source) (field : String) (target : EntityKey)
  | duplicateId (key : EntityKey)
  | duplicateSection (sec : SingleSection)
  | missingSection (sec : SingleSection)
  | noActs
  /-- An authored effect takes a critical item away. -/
  | criticalRemoval (source : Source) (item : EntityId) (effect : Effect)
  /-- A flag is read that no effect sets. -/
  | unwrittenFlag (source : Source) (flag : String)
  /-- The condition of a spoke asks about a spoke. -/
  | nestedSpoke (spoke : EntityId)
  | invalid (source : Source) (fault : Fault)
  deriving DecidableEq, Repr

def Problem.message : Problem → String
  | unresolved source field target =>
    source.text ++ " (" ++ field ++ ") refers to unknown " ++ target.text
  | duplicateId key => "duplicate identifier " ++ key.text
  | duplicateSection sec => "section `" ++ sec.name ++ "` is declared more than once"
  | missingSection sec => "missing `" ++ sec.name ++ "` section"
  | noActs => "world declares no acts"
  | criticalRemoval source item effect =>
    source.text ++ " removes critical item `" ++ item ++ "` via " ++ effect.text
  | unwrittenFlag source flag =>
    source.text ++ " reads flag `" ++ flag ++ "` which no effect sets"
  | nestedSpoke spoke => "spoke `" ++ spoke ++ "` refers to another spoke in its condition"
  | invalid source fault => source.text ++ ": " ++ fault.text

namespace Catalog

def writtenFlags (c : Catalog) : List String :=
  (c.interactions.toList.flatMap (·.effects) ++ c.beats.toList.flatMap (·.effects)).filterMap
    Effect.flagWritten?

/-- A key that is not declared is a problem of the field that holds it. -/
def checkKey (c : Catalog) (source : Source) (field : String) (key : EntityKey) : List Problem :=
  if c.contains key then [] else [.unresolved source field key]

def checkKey? (c : Catalog) (source : Source) (field : String) (key : Option EntityKey) :
    List Problem :=
  key.toList.flatMap (c.checkKey source field)

/-- What a condition names is declared, and the flags it reads are set somewhere. -/
def checkCondition (c : Catalog) (source : Source) (field : String) (cond : Condition) :
    List Problem :=
  cond.references.flatMap (c.checkKey source field) ++
  (cond.flagsRead.filter fun f => !c.writtenFlags.contains f).map (.unwrittenFlag source)

def checkCondition? (c : Catalog) (source : Source) (field : String) (cond : Option Condition) :
    List Problem :=
  cond.toList.flatMap (c.checkCondition source field)

/-- The critical item that an effect takes away. -/
def criticalRemoval? (c : Catalog) (e : Effect) : Option EntityId := e.parts?.filter c.isCritical

/-- A description can be replaced only for the kinds that have one. -/
def checkDescribed (source : Source) : Effect → List Problem
  | .describe key _ =>
    if key.kind.overridable then [] else [.invalid source (.fixedDescription key.kind)]
  | _ => []

/-- What an effect names is declared, and it leaves critical items alone. -/
def checkEffect (c : Catalog) (source : Source) (e : Effect) : List Problem :=
  e.references.flatMap (c.checkKey source "effects") ++
  ((c.criticalRemoval? e).toList.map fun item => .criticalRemoval source item e) ++
  checkDescribed source e

/-- The start is in a declared place within reach, and its items are declared and nowhere else.
An empty start location is not looked at any further. -/
def checkStart (c : Catalog) : List Problem :=
  if c.start.location.isEmpty then []
  else
    c.checkKey .start "location" (.location c.start.location) ++
    c.checkKey? .start "act" (c.start.act.map .act) ++
    (c.start.inventory.flatMap fun item =>
      c.checkKey .start "inventory" (.item item) ++
      (((c.items.get? item).filter fun d => d.location.isSome || d.holder.isSome).toList.map
        fun d => .invalid (.definition (.item d.id)) .carriedAndPlaced)) ++
    (if (c.acts.get? c.initialAct).any fun a => !a.locations.contains c.start.location then
      [.invalid .start .startOutOfReach] else [])

/-- An item has at most one home, and it is declared. -/
def checkItem (c : Catalog) (d : Item) : List Problem :=
  let source := .definition (.item d.id)
  c.checkKey? source "location" (d.location.map .location) ++
  c.checkKey? source "holder" (d.holder.map .character) ++
  (if d.location.isSome && d.holder.isSome then [.invalid source .twoHomes] else [])

def checkCharacter (c : Catalog) (d : Character) : List Problem :=
  c.checkKey? (.definition (.character d.id)) "location" (d.location.map .location)

/-- Both ends of an exit are declared, its conditions are sound, and the player can name it. -/
def checkExit (c : Catalog) (d : Exit) : List Problem :=
  let source := .definition (.exit d.id)
  c.checkKey source "from" (.location d.origin) ++
  c.checkKey source "to" (.location d.destination) ++
  c.checkCondition? source "visible_when" d.visibleWhen ++
  c.checkCondition? source "open_when" d.openWhen ++
  (if d.direction.isNone && d.triggers.isEmpty then [.invalid source .noWayThrough] else [])

/-- What an interaction of this kind cannot do without. -/
def kindFault? (d : Interaction) : Option Fault :=
  match d.kind with
  | .interact => if d.triggers.isEmpty then some .interactWithoutTrigger else none
  | .take | .use => if d.item.isNone then some .withoutItem else none
  | .examine => if d.target.isNone then some .examineWithoutTarget else none
  | .talk => if d.target.any (·.kind == .character) then none else some .talkWithoutCharacter

/-- What an interaction names is declared, and it has what its kind needs. -/
def checkInteraction (c : Catalog) (d : Interaction) : List Problem :=
  let source := .definition (.interaction d.id)
  c.checkKey? source "location" (d.location.map .location) ++
  c.checkKey? source "target" d.target ++
  c.checkKey? source "item" (d.item.map .item) ++
  c.checkCondition? source "requires" d.requires ++
  d.effects.flatMap (c.checkEffect source) ++
  ((kindFault? d).toList.map (.invalid source))

/-- The trigger of a beat is sound, unless an act is left through it, and so are its effects. -/
def checkBeat (c : Catalog) (d : Beat) : List Problem :=
  let source := .definition (.beat d.id)
  (if c.isGateBeat d.id then [] else c.checkCondition source "trigger" d.trigger) ++
  d.effects.flatMap (c.checkEffect source)

/-- The act of a spoke is declared, and its condition is sound and asks about no spoke. -/
def checkSpoke (c : Catalog) (d : Spoke) : List Problem :=
  let source := .definition (.spoke d.id)
  c.checkKey source "act" (.act d.act) ++
  (if d.condition.spokes.isEmpty then [] else [.nestedSpoke d.id]) ++
  c.checkCondition source "condition" d.condition

/-- The lists and the gate of an act are sound; `seen` holds the gate beats of earlier acts. -/
def checkAct (c : Catalog) (seen : List EntityId) (d : Act) : List Problem :=
  let source := .definition (.act d.id)
  ((d.locations ++ d.excludeLocations).flatMap fun l =>
    c.checkKey source "locations" (.location l)) ++
  ((d.characters ++ d.excludeCharacters).flatMap fun p =>
    c.checkKey source "characters" (.character p)) ++
  c.checkCondition? source "gate" d.gate ++
  (d.gateBeat.toList.flatMap fun b =>
    c.checkKey source "gate_beat" (.beat b) ++
    (if seen.contains b then [.invalid source (.sharedGateBeat b)] else []))

def checkActs (c : Catalog) (seen : List EntityId) : List Act → List Problem
  | [] => []
  | d :: ds => c.checkAct seen d ++ c.checkActs (d.gateBeat.toList ++ seen) ds

/-- A rule is for another version, and what it leads to is declared. -/
def checkMigration (c : Catalog) (r : MigrationRule) : List Problem :=
  let source := .migration r.version
  (if r.version == c.version then [.invalid source .currentVersion] else []) ++
  c.checkKey? source "relocate" (r.relocate.map .location) ++
  (EntityKind.all.flatMap fun kind =>
    (r.rename.ofKind kind).values.flatMap fun new => c.checkKey source "rename" ⟨kind, new⟩)

def check (c : Catalog) : List Problem :=
  c.checkStart ++
  c.items.toList.flatMap c.checkItem ++
  c.characters.toList.flatMap c.checkCharacter ++
  c.exits.toList.flatMap c.checkExit ++
  c.interactions.toList.flatMap c.checkInteraction ++
  c.beats.toList.flatMap c.checkBeat ++
  c.spokes.toList.flatMap c.checkSpoke ++
  c.checkActs [] c.acts.toList ++
  (c.victory.toList.flatMap fun v =>
    c.checkCondition (.definition (.victory v.id)) "condition" v.condition) ++
  c.migrations.flatMap c.checkMigration

/-- The catalog that a document describes, sound or not. A missing section reads as an empty one. -/
def draft (doc : WorldDocument) : Catalog :=
  let start := doc.start.getD { location := "" }
  let acts := Table.ofList doc.acts
  { info := doc.world.getD { title := "", version := "" }
    start
    initialAct := (start.act <|> acts.toList.head?.map (·.id)).getD ""
    locations := .ofList doc.locations
    items := .ofList doc.items
    characters := .ofList doc.characters
    exits := .ofList doc.exits
    interactions := .ofList doc.interactions
    beats := .ofList doc.beats
    spokes := .ofList doc.spokes
    acts
    victory := .ofList doc.victory
    migrations := doc.migrations }

/-- Whether the document gives no act to start in. -/
def lacksActs (doc : WorldDocument) : Bool :=
  (doc.start.bind (·.act)).isNone && doc.acts.isEmpty

def checkSections (doc : WorldDocument) : List Problem :=
  (if doc.world.isNone then [.missingSection .world] else []) ++
  (if doc.start.isNone then [.missingSection .start] else []) ++
  (Table.duplicates doc.acts).map (.duplicateId <| .act ·) ++
  (if lacksActs doc then [.noActs] else []) ++
  (Table.duplicates doc.locations).map (.duplicateId <| .location ·) ++
  (Table.duplicates doc.items).map (.duplicateId <| .item ·) ++
  (Table.duplicates doc.characters).map (.duplicateId <| .character ·) ++
  (Table.duplicates doc.exits).map (.duplicateId <| .exit ·) ++
  (Table.duplicates doc.interactions).map (.duplicateId <| .interaction ·) ++
  (Table.duplicates doc.beats).map (.duplicateId <| .beat ·) ++
  (Table.duplicates doc.spokes).map (.duplicateId <| .spoke ·) ++
  (Table.duplicates doc.victory).map (.duplicateId <| .victory ·)

def problems (doc : WorldDocument) : List Problem := checkSections doc ++ (draft doc).check

/-- The catalog of a document with which nothing is wrong. -/
def ofDocument (doc : WorldDocument) : Except (List Problem) Catalog :=
  match problems doc with
  | [] => .ok (draft doc)
  | found => .error found

/-- The catalog of several documents, merged in order. -/
def ofDocuments (docs : List WorldDocument) : Except (List Problem) Catalog :=
  let (doc, clashes) := WorldDocument.mergeAll docs
  match clashes.map Problem.duplicateSection ++ problems doc with
  | [] => .ok (draft doc)
  | found => .error found

/-- The catalogs that loading can give. -/
def Accepted (c : Catalog) : Prop := ∃ doc, ofDocument doc = .ok c

theorem ofDocument_eq_ok_iff {doc : WorldDocument} {c : Catalog} :
    ofDocument doc = .ok c ↔ problems doc = [] ∧ draft doc = c := by
  unfold ofDocument
  split
  · rename_i h; simp [h]
  · rename_i h
    exact ⟨(nomatch ·), fun he => absurd he.1 h⟩

end Catalog

def Problem.summary (problems : List Problem) : String :=
  s!"world failed its integrity check ({problems.length} problem(s))"

end Storyworld
