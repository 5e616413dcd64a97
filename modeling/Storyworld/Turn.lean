import Storyworld.Interpretation
import Storyworld.Narration
import Storyworld.Settings

/-!
# Turns

One line of the player from reading to prose. The turn counter moves whatever comes of the line. All
that an approved intent does lands together or not at all: its own effects, the mark on an
interaction that runs once, the beats, the spokes, the gate of the act and the victory. If any
effect meets an obstacle the state stays as it was, but for the counter.
-/

namespace Storyworld

/-- How a turn ended. -/
inductive TurnStatus
  | committed
  | rejected (r : Rejection)
  /-- Several readings fit. -/
  | ambiguous (candidates : List String)
  /-- No reading fits. -/
  | unrecognized
  /-- The verb does not fit its target. -/
  | reinterpret
  deriving DecidableEq, Repr

/-- What an approved plan did. -/
structure Commit where
  state : State
  beats : List FiredBeat
  transition : Option Transition
  victory : Option Victory

namespace State

/-- Marks an interaction that runs once as used. -/
def markRun (c : Catalog) (s : State) (interaction : Option EntityId) : State :=
  match (interaction.bind c.interactions.get?).filter (!·.repeatable) with
  | some d => s.markUsed d.id
  | none => s

/-- Lands a plan whose effects are approved. -/
def commit (c : Catalog) (s : State) (effects : List Effect) (interaction : Option EntityId) :
    Except Inconsistency Commit :=
  match s.applyAll c effects with
  | .error bad => .error bad
  | .ok s =>
    match (s.markRun c interaction).fireDue c with
    | .error (bad, _) => .error bad
    | .ok (s, beats) =>
      match (s.recordSpokes c).passGate c with
      | .error bad => .error bad
      | .ok (s, transition) =>
        let (state, victory) := s.recordVictory c
        .ok { state, beats, transition, victory }

end State

structure TurnOutcome where
  turn : UInt64
  status : TurnStatus
  narration : Prose
  /-- The effects of the intent that were committed. -/
  effects : List Effect := []
  beats : List FiredBeat := []
  transition : Option Transition := none
  victory : Option EntityId := none
  deriving DecidableEq, Repr

def TurnOutcome.isCommitted (o : TurnOutcome) : Bool := o.status == .committed

/-- Who may be asked during a turn. -/
structure Companions where
  intent : Option IntentCompanion := none
  prose : Option ProseCompanion := none

/-- A turn that was played: the state it leaves, what came of it, and what the companions were
asked. -/
structure Played where
  state : State
  outcome : Except Inconsistency TurnOutcome
  intentRequest : Option IntentRequest := none
  proseRequest : Option Narration.Request := none

def Settings.interpreter (s : Settings) (companion : Option IntentCompanion) : Interpreter where
  matching := { threshold := s.fuzzyThreshold }
  ambiguityThreshold := s.ambiguityThreshold
  companion

/-- What becomes of an interpretation before anything is committed. -/
inductive Decision
  /-- Nothing is committed. -/
  | refused (status : TurnStatus) (text : String)
  /-- The plan is approved. -/
  | approved (p : Plan) (effects : List Effect)

def View.decide (v : View) (style : Narration.Style) : Interpretation → Decision
  | .ambiguous candidates => .refused (.ambiguous candidates) (Narration.clarify candidates)
  | .unrecognized reason => .refused .unrecognized (style.deflection reason)
  | .intent i =>
    let p := v.plan i
    match v.validate p with
    | .approved effects => .approved p effects
    | .rejected r => .refused (.rejected r) r.reason
    | .reinterpret text => .refused .reinterpret text

/-- What the narration of a committed turn is given. -/
def proseRequest (before after : View) (p : Plan) (effects : List Effect) (done : Commit) :
    Narration.Request where
  turn := before.state.turn
  prior := .of before
  action := before.describe p.intent
  effects := effects.map (.of after)
  beats := done.beats
  transition := done.transition
  response := p.response
  scene :=
    match p.intent with
    | .move _ | .examine none => some (.here after)
    | _ => none
  examined :=
    match p.intent with
    | .examine (some key) => some (.of after key)
    | _ => none
  victory := done.victory.map fun d => { id := d.id, narrative := d.narrative }

/-- Plays one line. -/
def playTurn (c : Catalog) (settings : Settings) (companions : Companions) (s : State)
    (input : String) : Played :=
  let s := s.advanceTurn
  let v := View.mk c s
  let interpreter := settings.interpreter companions.intent
  let intentRequest := interpreter.request? v input
  match v.decide settings.narrator (interpreter.interpret v input) with
  | .refused status text =>
    { state := s, outcome := .ok { turn := s.turn, status, narration := { text } }, intentRequest }
  | .approved p effects =>
    match s.commit c effects p.interaction with
    | .error bad => { state := s, outcome := .error bad, intentRequest }
    | .ok done =>
      let request := proseRequest v ⟨c, done.state⟩ p effects done
      { state := done.state
        outcome := .ok {
          turn := s.turn
          status := .committed
          narration :=
            narrate settings.narrator settings.narrationTimeoutMs.toNat companions.prose request
          effects
          beats := done.beats
          transition := done.transition
          victory := done.victory.map (·.id) }
        intentRequest
        proseRequest := companions.prose.map fun _ => request }

end Storyworld
