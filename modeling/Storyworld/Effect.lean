import Storyworld.Entity
import Storyworld.Flag

/-!
# Effects

An effect is one declared change of the session. Interactions and beats list them; the planner makes
them of the player's moves. `Effect.text` is the short form used in messages.
-/

namespace Storyworld

/-- One change of the session. -/
inductive Effect
  | setFlag (flag : String) (value : FlagValue)
  | clearFlag (flag : String)
  /-- Puts an item into the inventory. -/
  | giveItem (item : EntityId)
  /-- Takes an item out of the inventory; it is out of play until it is placed again. -/
  | removeItem (item : EntityId)
  /-- Takes an item out of play for good, wherever it is. -/
  | destroyItem (item : EntityId)
  | placeItem (item location : EntityId)
  /-- Hands an item to a character. -/
  | handItem (item character : EntityId)
  | movePlayer (location : EntityId)
  | moveCharacter (character location : EntityId)
  | adjustCounter (character : EntityId) (name : String) (change : Count)
  | setCounter (character : EntityId) (name : String) (value : Count)
  /-- Locks or unlocks an exit. -/
  | lockExit (exit : EntityId) (locked : Bool)
  /-- Hides or reveals an exit. -/
  | hideExit (exit : EntityId) (hidden : Bool)
  /-- Replaces the description of an entity. -/
  | describe (key : EntityKey) (text : String)
  /-- Records a spoke as complete. -/
  | completeSpoke (spoke : EntityId)
  /-- Moves the story forward to an act. -/
  | advanceAct (act : EntityId)
  deriving DecidableEq, Repr

namespace Effect

theorem eq_advanceAct_or_ne (e : Effect) :
    (∃ act, e = .advanceAct act) ∨ ∀ act, e ≠ .advanceAct act :=
  (Classical.em _).imp_right not_exists.1

def references : Effect → List EntityKey
  | setFlag _ _ | clearFlag _ => []
  | giveItem item | removeItem item | destroyItem item => [.item item]
  | placeItem item location => [.item item, .location location]
  | handItem item character => [.item item, .character character]
  | movePlayer location => [.location location]
  | moveCharacter character location => [.character character, .location location]
  | adjustCounter character _ _ | setCounter character _ _ => [.character character]
  | lockExit exit _ | hideExit exit _ => [.exit exit]
  | describe key _ => [key]
  | completeSpoke spoke => [.spoke spoke]
  | advanceAct act => [.act act]

/-- The flag an effect sets. -/
def flagWritten? : Effect → Option String
  | setFlag flag _ => some flag
  | _ => none

/-- The item an effect takes out of play whatever the state. -/
def removes? : Effect → Option EntityId
  | removeItem item | destroyItem item => some item
  | _ => none

/-- The item an effect takes from the player if it is carried, or takes out of play. -/
def parts? : Effect → Option EntityId
  | handItem item _ => some item
  | e => e.removes?

def text : Effect → String
  | setFlag flag value => s!"set_flag({flag}={value.display})"
  | clearFlag flag => s!"clear_flag({flag})"
  | giveItem item => s!"give_item({item})"
  | removeItem item => s!"remove_item({item})"
  | destroyItem item => s!"destroy_item({item})"
  | placeItem item location => s!"place_item({item} -> {location})"
  | handItem item character => s!"hand_item({item} -> {character})"
  | movePlayer location => s!"move_player({location})"
  | moveCharacter character location => s!"move_character({character} -> {location})"
  | adjustCounter character name change =>
    s!"adjust_counter({character}.{name} {change.signedText})"
  | setCounter character name value => s!"set_counter({character}.{name}={value.text})"
  | lockExit exit true => s!"lock_exit({exit})"
  | lockExit exit false => s!"unlock_exit({exit})"
  | hideExit exit true => s!"hide_exit({exit})"
  | hideExit exit false => s!"reveal_exit({exit})"
  | describe key _ => s!"describe({key.text})"
  | completeSpoke spoke => s!"complete_spoke({spoke})"
  | advanceAct act => s!"advance_act({act})"

end Effect
end Storyworld
