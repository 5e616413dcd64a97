import Storyworld.Codec.Basic
import Storyworld.Effect
import Storyworld.Intent

/-!
# Codec of effects and intents

An effect is a record whose one field says which effect is meant, and so is an intent.
-/

namespace Storyworld

open Datum

namespace Effect

def pair? (fmt : Format) (first second : String) (build : String → String → Effect) (d : Datum) :
    Option Effect := do
  let [a, b] ← d.fields? fmt fmt.choiceStrictness [first, second] | none
  return build (← need text? a) (← need text? b)

def counted? (fmt : Format) (count : String) (build : String → String → Count → Effect)
    (d : Datum) : Option Effect := do
  let [character, counter, n] ←
    d.fields? fmt fmt.choiceStrictness ["character", "counter", count] | none
  return build (← need text? character) (← need text? counter) (← need count? n)

/-- Reads the effect that a field says. -/
def ofField? (fmt : Format) (name : String) (d : Datum) : Option Effect :=
  match name with
  | "set_flag" => do
    let [flag, value] ← d.fields? fmt fmt.choiceStrictness ["flag", "value"] | none
    return .setFlag (← need text? flag) (← orElse default FlagValue.ofDatum? value)
  | "clear_flag" => d.text?.map .clearFlag
  | "give_item" => d.text?.map .giveItem
  | "remove_item" => d.text?.map .removeItem
  | "destroy_item" => d.text?.map .destroyItem
  | "place_item" => pair? fmt "item" "location" .placeItem d
  | "hand_item" => pair? fmt "item" "character" .handItem d
  | "move_player" => d.text?.map .movePlayer
  | "move_character" => pair? fmt "character" "location" .moveCharacter d
  | "adjust_counter" => counted? fmt "delta" .adjustCounter d
  | "set_counter" => counted? fmt "value" .setCounter d
  | "unlock_exit" => d.text?.map (.lockExit · false)
  | "lock_exit" => d.text?.map (.lockExit · true)
  | "reveal_exit" => d.text?.map (.hideExit · false)
  | "hide_exit" => d.text?.map (.hideExit · true)
  | "describe" => do
    let [kind, id, text] ← d.fields? fmt fmt.choiceStrictness ["kind", "id", "text"] | none
    return .describe ⟨← need (EntityKind.ofDatum? fmt) kind, ← need text? id⟩ (← need text? text)
  | "complete_spoke" => d.text?.map .completeSpoke
  | "advance_act" => d.text?.map .advanceAct
  | _ => none

def ofDatum? (fmt : Format) : Datum → Option Effect
  | .record [(name, d)] => ofField? fmt name d
  | _ => none

def toDatum : Effect → Datum
  | setFlag flag value =>
    choice "set_flag" (.record [("flag", .text flag), ("value", value.toDatum)])
  | clearFlag flag => choice "clear_flag" (.text flag)
  | giveItem item => choice "give_item" (.text item)
  | removeItem item => choice "remove_item" (.text item)
  | destroyItem item => choice "destroy_item" (.text item)
  | placeItem item location =>
    choice "place_item" (.record [("item", .text item), ("location", .text location)])
  | handItem item character =>
    choice "hand_item" (.record [("item", .text item), ("character", .text character)])
  | movePlayer location => choice "move_player" (.text location)
  | moveCharacter character location =>
    choice "move_character"
      (.record [("character", .text character), ("location", .text location)])
  | adjustCounter character name change =>
    choice "adjust_counter" (.record [("character", .text character), ("counter", .text name),
      ("delta", ofCount change)])
  | setCounter character name value =>
    choice "set_counter" (.record [("character", .text character), ("counter", .text name),
      ("value", ofCount value)])
  | lockExit exit false => choice "unlock_exit" (.text exit)
  | lockExit exit true => choice "lock_exit" (.text exit)
  | hideExit exit false => choice "reveal_exit" (.text exit)
  | hideExit exit true => choice "hide_exit" (.text exit)
  | describe key text =>
    choice "describe"
      (.record [("kind", key.kind.toDatum), ("id", .text key.id), ("text", .text text)])
  | completeSpoke spoke => choice "complete_spoke" (.text spoke)
  | advanceAct act => choice "advance_act" (.text act)

end Effect

namespace Intent

/-- Reads the one key of a record. -/
def target? (name : String) (d : Datum) : Option EntityKey := do
  let [target] ← d.fields? .json .lenient [name] | none
  need EntityKey.ofDatum? target

/-- Reads the intent that a field says. -/
def ofField? (name : String) (d : Datum) : Option Intent :=
  match name with
  | "move" => do
    let [exit] ← d.fields? .json .lenient ["exit"] | none
    return .move (← need text? exit)
  | "examine" => do
    let [target] ← d.wholeFields? .json .lenient ["target"] | none
    return .examine (← maybe EntityKey.ofDatum? target)
  | "take" => (target? "target" d).map .take
  | "drop" => (target? "target" d).map .drop
  | "use" => do
    let [item, on] ← d.wholeFields? .json .lenient ["item", "on"] | none
    return .use (← need EntityKey.ofDatum? item) (← maybe EntityKey.ofDatum? on)
  | "talk" => (target? "target" d).map .talk
  | "interact" => do
    let [interaction] ← d.fields? .json .lenient ["interaction"] | none
    return .interact (← need text? interaction)
  | _ => none

def ofDatum? : Datum → Option Intent
  | .record [(name, d)] => ofField? name d
  | _ => none

def toDatum : Intent → Datum
  | move exit => choice "move" (.record [("exit", .text exit)])
  | examine target => choice "examine" (.record [("target", ofOption EntityKey.toDatum target)])
  | take target => choice "take" (.record [("target", target.toDatum)])
  | drop target => choice "drop" (.record [("target", target.toDatum)])
  | use item on =>
    choice "use" (.record [("item", item.toDatum), ("on", ofOption EntityKey.toDatum on)])
  | talk target => choice "talk" (.record [("target", target.toDatum)])
  | interact interaction => choice "interact" (.record [("interaction", .text interaction)])

end Intent
end Storyworld
