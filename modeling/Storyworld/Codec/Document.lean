import Storyworld.Codec.Condition
import Storyworld.Codec.Effect
import Storyworld.Definition

/-!
# Codec of world documents

How every definition stands in a document. A definition knows all its fields and refuses others. A
field with a default may be missing; one that may be missing may be null too. Definitions are
written with all their fields.
-/

namespace Storyworld

open Datum

/-- Reads a definition by its named fields. -/
def define {α : Type} (fmt : Format) (names : List String)
    (build : List (Option Datum) → Option α) (d : Datum) : Option α :=
  (d.fields? fmt .strict names).bind build

/-- A field with a list of texts, empty by default. -/
def textsField : Option Datum → Option (List String) := orElse [] texts?

/-- A field with a text, empty by default. -/
def textField : Option Datum → Option String := orElse "" text?

/-- A field with a boolean, false by default. -/
def boolField : Option Datum → Option Bool := orElse false bool?

def maybeText : Option Datum → Option (Option String) := maybe text?

def ofMaybeText : Option String → Datum := ofOption .text

namespace WorldInfo

def ofDatum? (fmt : Format) : Datum → Option WorldInfo :=
  define fmt ["title", "version", "description"] fun
    | [title, version, description] => do
      return {
        title := ← need text? title
        version := ← orElse "1.0" text? version
        description := ← textField description }
    | _ => none

def toDatum (d : WorldInfo) : Datum :=
  .record [("title", .text d.title), ("version", .text d.version),
    ("description", .text d.description)]

end WorldInfo

namespace Start

def ofDatum? (fmt : Format) : Datum → Option Start :=
  define fmt ["location", "act", "inventory"] fun
    | [location, act, inventory] => do
      return {
        location := ← need text? location
        act := ← maybeText act
        inventory := ← textsField inventory }
    | _ => none

def toDatum (d : Start) : Datum :=
  .record [("location", .text d.location), ("act", ofMaybeText d.act),
    ("inventory", ofTexts d.inventory)]

end Start

namespace Location

def ofDatum? (fmt : Format) : Datum → Option Location :=
  define fmt ["id", "name", "description", "aliases", "narrative"] fun
    | [id, name, description, aliases, narrative] => do
      return {
        id := ← need text? id
        name := ← need text? name
        description := ← textField description
        aliases := ← textsField aliases
        narrative := ← maybeText narrative }
    | _ => none

def toDatum (d : Location) : Datum :=
  .record [("id", .text d.id), ("name", .text d.name), ("description", .text d.description),
    ("aliases", ofTexts d.aliases), ("narrative", ofMaybeText d.narrative)]

end Location

namespace Item

def ofDatum? (fmt : Format) : Datum → Option Item :=
  define fmt ["id", "name", "description", "aliases", "location", "holder", "portable", "critical",
      "narrative"] fun
    | [id, name, description, aliases, location, holder, portable, critical, narrative] => do
      return {
        id := ← need text? id
        name := ← need text? name
        description := ← textField description
        aliases := ← textsField aliases
        location := ← maybeText location
        holder := ← maybeText holder
        portable := ← orElse true bool? portable
        critical := ← boolField critical
        narrative := ← maybeText narrative }
    | _ => none

def toDatum (d : Item) : Datum :=
  .record [("id", .text d.id), ("name", .text d.name), ("description", .text d.description),
    ("aliases", ofTexts d.aliases), ("location", ofMaybeText d.location),
    ("holder", ofMaybeText d.holder), ("portable", .bool d.portable),
    ("critical", .bool d.critical), ("narrative", ofMaybeText d.narrative)]

end Item

namespace Character

def ofDatum? (fmt : Format) : Datum → Option Character :=
  define fmt ["id", "name", "description", "aliases", "location", "counters", "narrative"] fun
    | [id, name, description, aliases, location, counters, narrative] => do
      return {
        id := ← need text? id
        name := ← need text? name
        description := ← textField description
        aliases := ← textsField aliases
        location := ← maybeText location
        counters := ← orElse .empty (map? count?) counters
        narrative := ← maybeText narrative }
    | _ => none

def toDatum (d : Character) : Datum :=
  .record [("id", .text d.id), ("name", .text d.name), ("description", .text d.description),
    ("aliases", ofTexts d.aliases), ("location", ofMaybeText d.location),
    ("counters", ofMap ofCount d.counters), ("narrative", ofMaybeText d.narrative)]

end Character

namespace Exit

def ofDatum? (fmt : Format) : Datum → Option Exit :=
  define fmt ["id", "from", "to", "direction", "triggers", "description", "locked", "hidden",
      "visible_when", "open_when", "locked_message", "narrative"] fun
    | [id, origin, destination, direction, triggers, description, locked, hidden, visibleWhen,
        openWhen, lockedMessage, narrative] => do
      return {
        id := ← need text? id
        origin := ← need text? origin
        destination := ← need text? destination
        direction := ← maybeText direction
        triggers := ← textsField triggers
        description := ← textField description
        locked := ← boolField locked
        hidden := ← boolField hidden
        visibleWhen := ← maybe (Condition.ofDatum? fmt) visibleWhen
        openWhen := ← maybe (Condition.ofDatum? fmt) openWhen
        lockedMessage := ← maybeText lockedMessage
        narrative := ← maybeText narrative }
    | _ => none

def toDatum (d : Exit) : Datum :=
  .record [("id", .text d.id), ("from", .text d.origin), ("to", .text d.destination),
    ("direction", ofMaybeText d.direction), ("triggers", ofTexts d.triggers),
    ("description", .text d.description), ("locked", .bool d.locked), ("hidden", .bool d.hidden),
    ("visible_when", ofOption Condition.toDatum d.visibleWhen),
    ("open_when", ofOption Condition.toDatum d.openWhen),
    ("locked_message", ofMaybeText d.lockedMessage), ("narrative", ofMaybeText d.narrative)]

end Exit

namespace Interaction

def ofDatum? (fmt : Format) : Datum → Option Interaction :=
  define fmt ["id", "kind", "triggers", "location", "target", "item", "requires", "refusal",
      "effects", "response", "repeatable", "narrative"] fun
    | [id, kind, triggers, location, target, item, requires, refusal, effects, response,
        repeatable, narrative] => do
      return {
        id := ← need text? id
        kind := ← orElse default (choice? fmt InteractionKind.all InteractionKind.name) kind
        triggers := ← textsField triggers
        location := ← maybeText location
        target := ← maybe EntityKey.ofDatum? target
        item := ← maybeText item
        requires := ← maybe (Condition.ofDatum? fmt) requires
        refusal := ← maybeText refusal
        effects := ← orElse [] (list? (Effect.ofDatum? fmt)) effects
        response := ← maybeText response
        repeatable := ← boolField repeatable
        narrative := ← maybeText narrative }
    | _ => none

def toDatum (d : Interaction) : Datum :=
  .record [("id", .text d.id), ("kind", .text d.kind.name), ("triggers", ofTexts d.triggers),
    ("location", ofMaybeText d.location), ("target", ofOption EntityKey.toDatum d.target),
    ("item", ofMaybeText d.item), ("requires", ofOption Condition.toDatum d.requires),
    ("refusal", ofMaybeText d.refusal), ("effects", ofList Effect.toDatum d.effects),
    ("response", ofMaybeText d.response), ("repeatable", .bool d.repeatable),
    ("narrative", ofMaybeText d.narrative)]

end Interaction

namespace Beat

def ofDatum? (fmt : Format) : Datum → Option Beat :=
  define fmt ["id", "name", "trigger", "effects", "repeatable", "narrative"] fun
    | [id, name, trigger, effects, repeatable, narrative] => do
      return {
        id := ← need text? id
        name := ← maybeText name
        trigger := ← orElse .always (Condition.ofDatum? fmt) trigger
        effects := ← orElse [] (list? (Effect.ofDatum? fmt)) effects
        repeatable := ← boolField repeatable
        narrative := ← maybeText narrative }
    | _ => none

def toDatum (d : Beat) : Datum :=
  .record [("id", .text d.id), ("name", ofMaybeText d.name), ("trigger", d.trigger.toDatum),
    ("effects", ofList Effect.toDatum d.effects), ("repeatable", .bool d.repeatable),
    ("narrative", ofMaybeText d.narrative)]

end Beat

namespace Spoke

def ofDatum? (fmt : Format) : Datum → Option Spoke :=
  define fmt ["id", "act", "name", "condition"] fun
    | [id, act, name, condition] => do
      return {
        id := ← need text? id
        act := ← need text? act
        name := ← maybeText name
        condition := ← need (Condition.ofDatum? fmt) condition }
    | _ => none

def toDatum (d : Spoke) : Datum :=
  .record [("id", .text d.id), ("act", .text d.act), ("name", ofMaybeText d.name),
    ("condition", d.condition.toDatum)]

end Spoke

namespace Act

def ofDatum? (fmt : Format) : Datum → Option Act :=
  define fmt ["id", "name", "locations", "characters", "mode", "exclude_locations",
      "exclude_characters", "gate", "gate_beat", "narrative"] fun
    | [id, name, locations, characters, mode, excludeLocations, excludeCharacters, gate, gateBeat,
        narrative] => do
      return {
        id := ← need text? id
        name := ← maybeText name
        locations := ← textsField locations
        characters := ← textsField characters
        mode := ← orElse default (choice? fmt ActMode.all ActMode.name) mode
        excludeLocations := ← textsField excludeLocations
        excludeCharacters := ← textsField excludeCharacters
        gate := ← maybe (Condition.ofDatum? fmt) gate
        gateBeat := ← maybeText gateBeat
        narrative := ← maybeText narrative }
    | _ => none

def toDatum (d : Act) : Datum :=
  .record [("id", .text d.id), ("name", ofMaybeText d.name), ("locations", ofTexts d.locations),
    ("characters", ofTexts d.characters), ("mode", .text d.mode.name),
    ("exclude_locations", ofTexts d.excludeLocations),
    ("exclude_characters", ofTexts d.excludeCharacters),
    ("gate", ofOption Condition.toDatum d.gate), ("gate_beat", ofMaybeText d.gateBeat),
    ("narrative", ofMaybeText d.narrative)]

end Act

namespace Victory

def ofDatum? (fmt : Format) : Datum → Option Victory :=
  define fmt ["id", "condition", "narrative"] fun
    | [id, condition, narrative] => do
      return {
        id := ← need text? id
        condition := ← need (Condition.ofDatum? fmt) condition
        narrative := ← maybeText narrative }
    | _ => none

def toDatum (d : Victory) : Datum :=
  .record [("id", .text d.id), ("condition", d.condition.toDatum),
    ("narrative", ofMaybeText d.narrative)]

end Victory

namespace RenameTable

def ofDatum? (fmt : Format) : Datum → Option RenameTable :=
  define fmt ["locations", "items", "characters", "exits", "interactions", "beats", "spokes",
      "acts", "flags"] fun
    | [locations, items, characters, exits, interactions, beats, spokes, acts, flags] => do
      let renames := orElse .empty (map? text?)
      return {
        locations := ← renames locations
        items := ← renames items
        characters := ← renames characters
        exits := ← renames exits
        interactions := ← renames interactions
        beats := ← renames beats
        spokes := ← renames spokes
        acts := ← renames acts
        flags := ← renames flags }
    | _ => none

def toDatum (t : RenameTable) : Datum :=
  let renames := ofMap .text
  .record [("locations", renames t.locations), ("items", renames t.items),
    ("characters", renames t.characters), ("exits", renames t.exits),
    ("interactions", renames t.interactions), ("beats", renames t.beats),
    ("spokes", renames t.spokes), ("acts", renames t.acts), ("flags", renames t.flags)]

end RenameTable

namespace MigrationRule

def ofDatum? (fmt : Format) : Datum → Option MigrationRule :=
  define fmt ["from", "rename", "drop_flags", "relocate", "discard_missing"] fun
    | [version, rename, dropFlags, relocate, discardMissing] => do
      return {
        version := ← need text? version
        rename := ← orElse {} (RenameTable.ofDatum? fmt) rename
        dropFlags := ← textsField dropFlags
        relocate := ← maybeText relocate
        discardMissing := ← boolField discardMissing }
    | _ => none

def toDatum (r : MigrationRule) : Datum :=
  .record [("from", .text r.version), ("rename", r.rename.toDatum),
    ("drop_flags", ofTexts r.dropFlags), ("relocate", ofMaybeText r.relocate),
    ("discard_missing", .bool r.discardMissing)]

end MigrationRule

namespace WorldDocument

/-- A section with a list of definitions, empty by default. -/
def sectionOf {α : Type} (read : Datum → Option α) : Option Datum → Option (List α) :=
  orElse [] (list? read)

def ofDatum? (fmt : Format) : Datum → Option WorldDocument :=
  define fmt ["world", "start", "locations", "items", "characters", "exits", "interactions",
      "beats", "spokes", "acts", "victory", "migrations"] fun
    | [world, start, locations, items, characters, exits, interactions, beats, spokes, acts,
        victory, migrations] => do
      return {
        world := ← maybe (WorldInfo.ofDatum? fmt) world
        start := ← maybe (Start.ofDatum? fmt) start
        locations := ← sectionOf (Location.ofDatum? fmt) locations
        items := ← sectionOf (Item.ofDatum? fmt) items
        characters := ← sectionOf (Character.ofDatum? fmt) characters
        exits := ← sectionOf (Exit.ofDatum? fmt) exits
        interactions := ← sectionOf (Interaction.ofDatum? fmt) interactions
        beats := ← sectionOf (Beat.ofDatum? fmt) beats
        spokes := ← sectionOf (Spoke.ofDatum? fmt) spokes
        acts := ← sectionOf (Act.ofDatum? fmt) acts
        victory := ← sectionOf (Victory.ofDatum? fmt) victory
        migrations := ← sectionOf (MigrationRule.ofDatum? fmt) migrations }
    | _ => none

def toDatum (d : WorldDocument) : Datum :=
  .record [("world", ofOption WorldInfo.toDatum d.world), ("start", ofOption Start.toDatum d.start),
    ("locations", ofList Location.toDatum d.locations), ("items", ofList Item.toDatum d.items),
    ("characters", ofList Character.toDatum d.characters),
    ("exits", ofList Exit.toDatum d.exits),
    ("interactions", ofList Interaction.toDatum d.interactions),
    ("beats", ofList Beat.toDatum d.beats), ("spokes", ofList Spoke.toDatum d.spokes),
    ("acts", ofList Act.toDatum d.acts), ("victory", ofList Victory.toDatum d.victory),
    ("migrations", ofList MigrationRule.toDatum d.migrations)]

end WorldDocument
end Storyworld
