import Storyworld.Codec.Basic
import Storyworld.Condition

/-!
# Codec of conditions

A condition is a name, or a record whose one field says which condition is meant.
-/

namespace Storyworld

open Datum

def Comparison.ofDatum? (fmt : Format) : Datum → Option Comparison := choice? fmt all sign

/-- Reads the atom that a field says. -/
def Atom.ofField? (fmt : Format) (name : String) (d : Datum) : Option Atom :=
  match name with
  | "flag" => d.text?.map .flag
  | "flag_equals" => do
    let [name, value] ← d.fields? fmt fmt.choiceStrictness ["flag", "value"] | none
    return .flagEquals (← need text? name) (← need FlagValue.ofDatum? value)
  | "has_item" => d.text?.map .hasItem
  | "item_at" => do
    let [item, location] ← d.fields? fmt fmt.choiceStrictness ["item", "location"] | none
    return .itemAt (← need text? item) (← need text? location)
  | "at" => d.text?.map .at
  | "counter" => do
    let [character, name, cmp, value] ←
      d.fields? fmt fmt.choiceStrictness ["character", "counter", "cmp", "value"] | none
    return .counter (← need text? character) (← need text? name)
      (← orElse default (Comparison.ofDatum? fmt) cmp) (← need count? value)
  | "spoke" => d.text?.map .spoke
  | "beat_fired" => d.text?.map .beatFired
  | "act_reached" => d.text?.map .actReached
  | "interaction_used" => d.text?.map .interactionUsed
  | _ => none

def Atom.toDatum : Atom → Datum
  | flag name => choice "flag" (.text name)
  | flagEquals name value =>
    choice "flag_equals" (.record [("flag", .text name), ("value", value.toDatum)])
  | hasItem item => choice "has_item" (.text item)
  | itemAt item location =>
    choice "item_at" (.record [("item", .text item), ("location", .text location)])
  | «at» location => choice "at" (.text location)
  | counter character name cmp value =>
    choice "counter" (.record [("character", .text character), ("counter", .text name),
      ("cmp", .text cmp.sign), ("value", ofCount value)])
  | spoke s => choice "spoke" (.text s)
  | beatFired b => choice "beat_fired" (.text b)
  | actReached a => choice "act_reached" (.text a)
  | interactionUsed i => choice "interaction_used" (.text i)

namespace Condition

mutual
def ofDatum? (fmt : Format) : Datum → Option Condition
  | .text s => if s = "always" then some .always else none
  | .record [(name, d)] =>
    if name = "not" then (ofDatum? fmt d).map .not
    else if name = "all" then (ofList? fmt d).map .all
    else if name = "any" then (ofList? fmt d).map .any
    else if name = "always" then if d.isUnit fmt then some .always else none
    else (Atom.ofField? fmt name d).map .atom
  | _ => none
def ofList? (fmt : Format) : Datum → Option (List Condition)
  | .list items => ofItems? fmt items
  | _ => none
def ofItems? (fmt : Format) : List Datum → Option (List Condition)
  | [] => some []
  | d :: ds =>
    match ofDatum? fmt d, ofItems? fmt ds with
    | some c, some cs => some (c :: cs)
    | _, _ => none
end

mutual
def toDatum : Condition → Datum
  | always => .text "always"
  | atom a => a.toDatum
  | not c => choice "not" c.toDatum
  | all cs => choice "all" (.list (toItems cs))
  | any cs => choice "any" (.list (toItems cs))
def toItems : List Condition → List Datum
  | [] => []
  | c :: cs => c.toDatum :: toItems cs
end

end Condition
end Storyworld
