import Storyworld.View

/-!
# Applying effects

What each effect does to the state. An effect that names an undeclared entity, that brings back a
destroyed item, or that describes an entity without description cannot be applied; a list of effects
is applied as a whole or not at all.
-/

namespace Storyworld

/-- Why an effect cannot be applied. -/
inductive Obstacle
  | unknownEntity (key : EntityKey)
  | destroyedItem (item : EntityId)
  | fixedDescription (kind : EntityKind)
  deriving DecidableEq, Repr

def Obstacle.text : Obstacle → String
  | unknownEntity key => "unknown entity " ++ key.text
  | destroyedItem item => "item `" ++ item ++ "` was destroyed"
  | fixedDescription kind => kind.name ++ " descriptions cannot change"

/-- An effect met an obstacle. -/
structure Inconsistency where
  effect : Effect
  obstacle : Obstacle
  deriving DecidableEq, Repr

def Inconsistency.message (e : Inconsistency) : String :=
  "internal consistency error applying " ++ e.effect.text ++ ": " ++ e.obstacle.text

namespace State

variable (c : Catalog)

/-- Puts an item somewhere, out of the inventory. -/
def putItem (s : State) (item : EntityId) (p : Placement) : State :=
  (s.removeItem item).setPlacement c item p

def takeItem (s : State) (item : EntityId) : State :=
  (s.addItem item).setPlacement c item .carried

/-- Enters every act after the current one up to the given one. Acts never go back. -/
def advanceTo (s : State) (act : EntityId) : State :=
  match c.acts.position? s.act, c.acts.position? act with
  | some current, some target =>
    ((c.acts.toList.drop (current + 1)).take (target - current)).foldl
      (fun s a => s.enterAct a.id) s
  | _, _ => s

/-- What is in the way of an effect whose entities are all declared. -/
def obstacle? (s : State) : Effect → Option Obstacle
  | .giveItem item | .placeItem item _ | .handItem item _ =>
    if (View.mk c s).placement item = .destroyed then some (.destroyedItem item) else none
  | .describe key _ => if key.kind.overridable then none else some (.fixedDescription key.kind)
  | _ => none

/-- The change that an effect makes when nothing is in its way. -/
def change (s : State) : Effect → State
  | .setFlag flag value => s.setFlag flag value
  | .clearFlag flag => s.clearFlag flag
  | .giveItem item => s.takeItem c item
  | .removeItem item => if s.hasItem item then s.putItem c item .limbo else s
  | .destroyItem item => s.putItem c item .destroyed
  | .placeItem item location => s.putItem c item (.location location)
  | .handItem item character => s.putItem c item (.holder character)
  | .movePlayer location => s.setLocation location
  | .moveCharacter character location => s.moveCharacter c character location
  | .adjustCounter character name d =>
    s.setCounter c character name (((View.mk c s).counter character name).addSat d)
  | .setCounter character name value => s.setCounter c character name value
  | .lockExit exit locked => s.setLocked c exit locked
  | .hideExit exit hidden => s.setHidden c exit hidden
  | .describe key text => s.describe c key text
  | .completeSpoke spoke => s.completeSpoke spoke
  | .advanceAct act => s.advanceTo c act

def apply (s : State) (e : Effect) : Except Inconsistency State :=
  match e.references.find? fun key => !c.contains key with
  | some key => .error ⟨e, .unknownEntity key⟩
  | none =>
    match s.obstacle? c e with
    | some o => .error ⟨e, o⟩
    | none => .ok (s.change c e)

def applyAll (s : State) : List Effect → Except Inconsistency State
  | [] => .ok s
  | e :: es =>
    match s.apply c e with
    | .error bad => .error bad
    | .ok s => s.applyAll es

variable {c} {s t : State}

theorem applyAll_cons_eq_ok_iff {e : Effect} {es : List Effect} :
    s.applyAll c (e :: es) = .ok t ↔ ∃ m, s.apply c e = .ok m ∧ m.applyAll c es = .ok t := by
  rw [applyAll]
  cases s.apply c e <;> simp

theorem applyAll_append_eq_ok_iff {es fs : List Effect} :
    s.applyAll c (es ++ fs) = .ok t ↔
      ∃ m, s.applyAll c es = .ok m ∧ m.applyAll c fs = .ok t := by
  induction es generalizing s with
  | nil => simp [applyAll]
  | cons e es ih =>
    simp only [List.cons_append, applyAll_cons_eq_ok_iff, ih]
    constructor
    · rintro ⟨a, ha, b, hb, h⟩
      exact ⟨b, ⟨a, ha, hb⟩, h⟩
    · rintro ⟨b, ⟨a, ha, hb⟩, h⟩
      exact ⟨a, ha, b, hb, h⟩

end State
end Storyworld
