import Storyworld.Codec.Basic
import Storyworld.State

/-!
# Codec of the session state

Overrides say in a field `kind` what they override, and leave out the fields that they do not
change. A state is read with all its fields, and fields that it does not know are passed over.
-/

namespace Storyworld

open Datum

namespace Placement

/-- The placements that name no entity. -/
def unnamed : List Placement := [.carried, .limbo, .destroyed]

def name : Placement → String
  | location _ => "location"
  | carried => "carried"
  | holder _ => "holder"
  | limbo => "limbo"
  | destroyed => "destroyed"

/-- Reads a placement; `blank` says what may stand beside a name that says all. -/
def read? (blank : Datum → Bool) : Datum → Option Placement
  | .text s => unnamed.find? (·.name == s)
  | .record [("location", d)] => d.text?.map .location
  | .record [("holder", d)] => d.text?.map .holder
  | .record [(s, d)] => if blank d then unnamed.find? (·.name == s) else none
  | _ => none

def ofDatum? : Datum → Option Placement := read? (isUnit .json)

def toDatum : Placement → Datum
  | location l => choice "location" (.text l)
  | carried => .text "carried"
  | holder c => choice "holder" (.text c)
  | limbo => .text "limbo"
  | destroyed => .text "destroyed"

end Placement

namespace Override

/-- Whether a datum adds nothing to the name that it stands beside. -/
def isBlank : Datum → Bool
  | .null | .record [] => true
  | _ => false

def ofDatum? (d : Datum) : Option Override := do
  let (kind, d) ← d.tagged? "kind"
  match kind with
  | "location" =>
    let [description] ← d.fields? .json .lenient ["description"] | none
    return .location (← maybe text? description)
  | "item" =>
    let [placement, description] ← d.fields? .json .lenient ["placement", "description"] | none
    return .item (← maybe (Placement.read? isBlank) placement) (← maybe text? description)
  | "character" =>
    let [place, description] ← d.fields? .json .lenient ["location", "description"] | none
    return .character (← maybe text? place) (← maybe text? description)
  | "exit" =>
    let [locked, hidden, description] ←
      d.fields? .json .lenient ["locked", "hidden", "description"] | none
    return .exit (← maybe bool? locked) (← maybe bool? hidden) (← maybe text? description)
  | _ => none

/-- A field that is left out when there is nothing to write. -/
def setField {α : Type} (name : String) (write : α → Datum) (value : Option α) :
    List (String × Datum) :=
  (value.map fun a => (name, write a)).toList

def toDatum (o : Override) : Datum :=
  .record <| ("kind", .text o.kind.name) ::
    match o with
    | location d => setField "description" .text d
    | item p d => setField "placement" Placement.toDatum p ++ setField "description" .text d
    | character l d => setField "location" .text l ++ setField "description" .text d
    | exit k h d =>
      setField "locked" .bool k ++ setField "hidden" .bool h ++ setField "description" .text d

end Override

namespace State

/-- The fields of a written state. -/
def fieldNames : List String :=
  ["turn", "location", "inventory", "flags", "counters", "deltas", "act", "reached_acts",
    "completed_spokes", "fired_beats", "latched_beats", "used_interactions", "victory"]

def ofDatum? (d : Datum) : Option State := do
  let [turn, location, inventory, flags, counters, overrides, act, reachedActs, completedSpokes,
      firedBeats, latchedBeats, usedInteractions, victory] ←
    d.wholeFields? .json .lenient fieldNames | none
  return {
    turn := ← need word? turn
    location := ← need text? location
    inventory := ← need texts? inventory
    flags := ← need (map? FlagValue.ofDatum?) flags
    counters := ← need (map? (map? count?)) counters
    overrides := ← need (fun d => (d.entries? EntityKey.ofText? Override.ofDatum?).map .ofList)
      overrides
    act := ← need text? act
    reachedActs := ← need texts? reachedActs
    completedSpokes := ← need set? completedSpokes
    firedBeats := ← need texts? firedBeats
    latchedBeats := ← need set? latchedBeats
    usedInteractions := ← need set? usedInteractions
    victory := ← maybe text? victory }

def toDatum (s : State) : Datum :=
  .record [("turn", ofWord s.turn), ("location", .text s.location),
    ("inventory", ofTexts s.inventory), ("flags", ofMap FlagValue.toDatum s.flags),
    ("counters", ofMap (ofMap ofCount) s.counters),
    ("deltas", .record (s.overrides.toList.map fun e => (e.1.text, e.2.toDatum))),
    ("act", .text s.act), ("reached_acts", ofTexts s.reachedActs),
    ("completed_spokes", ofSet s.completedSpokes), ("fired_beats", ofTexts s.firedBeats),
    ("latched_beats", ofSet s.latchedBeats), ("used_interactions", ofSet s.usedInteractions),
    ("victory", ofOption .text s.victory)]

end State
end Storyworld
