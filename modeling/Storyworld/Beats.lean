import Storyworld.Apply

/-!
# Story beats

Beats are looked at once in a committed turn. All of them see the state as the player's own action
left it; those that are due then fire in the order of their declaration. A beat that fires once is
due when its trigger holds; a repeatable one when its trigger has come to hold since it was last
looked at, which its latch remembers. Gate beats fire elsewhere.
-/

namespace Storyworld

structure FiredBeat where
  id : EntityId
  name : Option String := none
  effects : List Effect := []
  narrative : Option String := none
  deriving DecidableEq, Repr

/-- What is told of a beat that fires. -/
def Beat.fired (b : Beat) : FiredBeat :=
  { id := b.id, name := b.name, effects := b.effects, narrative := b.narrative }

namespace View

/-- The beats that are looked at in a turn. -/
def watchedBeats (v : View) : List Beat :=
  v.catalog.beats.toList.filter fun b => !v.catalog.isGateBeat b.id

def isDue (v : View) (b : Beat) : Bool :=
  v.holds b.trigger &&
    !(if b.repeatable then v.state.latchedBeats.contains b.id else v.state.firedBeats.contains b.id)

def dueBeats (v : View) : List Beat := v.watchedBeats.filter v.isDue

/-- The latches that remember whether the trigger of each repeatable beat holds. -/
def latches (v : View) : List (EntityId × Bool) :=
  (v.watchedBeats.filter (·.repeatable)).map fun b => (b.id, v.holds b.trigger)

end View

namespace State

variable (c : Catalog)

/-- Applies the effects of a beat and records it as fired. -/
def fire (s : State) (b : Beat) : Except Inconsistency State :=
  match s.applyAll c b.effects with
  | .error bad => .error bad
  | .ok s => .ok (s.markFired b.id)

/-- Fires beats in order. A failure comes with the state that the beats before it left. -/
def fireAll (s : State) : List Beat → Except (Inconsistency × State) State
  | [] => .ok s
  | b :: bs =>
    match s.fire c b with
    | .error bad => .error (bad, s)
    | .ok s => s.fireAll bs

def setLatches (s : State) (latches : List (EntityId × Bool)) : State :=
  latches.foldl (fun s l => s.setLatch l.1 l.2) s

/-- Fires the beats that are due and sets the latches. -/
def fireDue (s : State) : Except (Inconsistency × State) (State × List FiredBeat) :=
  let v := View.mk c s
  match s.fireAll c v.dueBeats with
  | .error bad => .error bad
  | .ok after => .ok (after.setLatches v.latches, v.dueBeats.map Beat.fired)

variable {c} {s t : State}

theorem fire_eq_ok_iff {b : Beat} :
    s.fire c b = .ok t ↔ ∃ m, s.applyAll c b.effects = .ok m ∧ t = m.markFired b.id := by
  unfold fire
  cases s.applyAll c b.effects <;> simp [eq_comm]

theorem fireAll_cons_eq_ok_iff {b : Beat} {bs : List Beat} :
    s.fireAll c (b :: bs) = .ok t ↔ ∃ m, s.fire c b = .ok m ∧ m.fireAll c bs = .ok t := by
  rw [fireAll]
  cases s.fire c b <;> simp

end State
end Storyworld
