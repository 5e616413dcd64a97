import Storyworld.Beats

/-!
# Acts and victory

Acts follow one another in the order of their declaration. After the beats of a turn the spokes of
the current act that are satisfied are recorded for good; then, if the gate of the act holds, its
gate beat fires and the next act is entered. A session is won once.
-/

namespace Storyworld

/-- The step from one act into the next. -/
structure Transition where
  origin : EntityId
  destination : EntityId
  /-- The name of the act that is entered. -/
  name : Option String
  gateBeat : Option FiredBeat
  narrative : Option String
  deriving DecidableEq, Repr

namespace View

/-- The spokes of the current act that are satisfied and not recorded. -/
def newSpokes (v : View) : List EntityId :=
  ((v.catalog.spokesOf v.state.act).filter fun d =>
    !v.spokeRecorded d.id && v.holds d.condition).map (·.id)

/-- Whether the act is over: its gate holds, or without one it has spokes and all are satisfied. -/
def gateHolds (v : View) (a : Act) : Bool :=
  match a.gate with
  | some gate => v.holds gate
  | none =>
    let spokes := v.catalog.spokesOf a.id
    !spokes.isEmpty && spokes.all fun d => v.spokeSatisfied d.id

/-- The current act and the next one, if the way into the next one is open. -/
def openGate? (v : View) : Option (Act × Act) :=
  (v.catalog.acts.get? v.state.act).bind fun current =>
    (v.catalog.nextAct? current.id).bind fun next =>
      if v.gateHolds current then some (current, next) else none

def pendingGateBeat? (v : View) (a : Act) : Option Beat :=
  (a.gateBeat.bind v.catalog.beats.get?).filter fun b => !v.state.firedBeats.contains b.id

/-- The first victory whose condition holds, unless the session is won. -/
def newVictory? (v : View) : Option Victory :=
  if v.state.victory.isSome then none
  else v.catalog.victory.toList.find? fun d => v.holds d.condition

end View

namespace State

variable (c : Catalog)

def recordSpokes (s : State) : State := (View.mk c s).newSpokes.foldl completeSpoke s

/-- Passes the gate of the current act if it holds. -/
def passGate (s : State) : Except Inconsistency (State × Option Transition) :=
  let v := View.mk c s
  match v.openGate? with
  | none => .ok (s, none)
  | some (current, next) =>
    let step (gateBeat : Option FiredBeat) : Transition :=
      { origin := current.id, destination := next.id, name := next.name, gateBeat
        narrative := next.narrative }
    match v.pendingGateBeat? current with
    | none => .ok (s.enterAct next.id, some (step none))
    | some b =>
      match s.fire c b with
      | .error bad => .error bad
      | .ok s => .ok (s.enterAct next.id, some (step (some b.fired)))

def recordVictory (s : State) : State × Option Victory :=
  match (View.mk c s).newVictory? with
  | none => (s, none)
  | some d => (s.setVictory d.id, some d)

end State
end Storyworld
