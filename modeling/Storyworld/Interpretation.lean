import Storyworld.Command
import Storyworld.Vocabulary
import Storyworld.Intent

/-!
# Interpretation

From a typed line to an intent. The line is tried as the phrase of an interaction, then as a
command, then as the phrase of an exit, then as something like the phrase of an interaction. Only
what is left is put to the intent companion, if there is one, whose answer counts as far as it is
confident.
-/

namespace Storyworld

open Text

/-- Why a line gives no intent. -/
inductive Unrecognized
  | noMatch
  /-- There is no exit that way. -/
  | noExit (direction : Direction)
  /-- The object names nothing in reach. -/
  | unknownTarget (phrase : String)
  | incomplete (prompt : Prompt)
  deriving DecidableEq, Repr

/-- What a line was found to mean. -/
inductive Interpretation
  | intent (i : Intent)
  /-- The names of readings that do equally well. -/
  | ambiguous (candidates : List String)
  | unrecognized (reason : Unrecognized)
  deriving DecidableEq, Repr

structure IntentRequest where
  text : String
  vocabulary : List Candidate
  /-- The phrases of the interactions offered here. -/
  phrases : List (EntityId × String)
  inventory : List EntityId
  deriving DecidableEq, Repr

structure IntentReply where
  intent : Intent
  /-- Between zero and one. -/
  confidence : Float

/-- Reads lines that nothing else can place. It may fail. -/
abbrev IntentCompanion := IntentRequest → Option IntentReply

structure Interpreter where
  matching : Matching
  /-- Replies below this confidence are put back to the player. -/
  ambiguityThreshold : Float
  companion : Option IntentCompanion := none

/-- What a line was found to mean, or what is still to be asked about it. -/
inductive Reading
  | settled (i : Interpretation)
  /-- Nothing matched; what to fall back on if the companion cannot help. -/
  | open (fallback : Unrecognized)

namespace View

variable (v : View)

/-- The interactions offered where the player is, in declaration order. -/
def offeredHere : List Interaction := v.catalog.interactions.toList.filter v.offers

/-- The first interaction with exactly this phrase, one that is not spent if there is one. -/
def exactInteraction? (wanted : String) : Option EntityId :=
  let matching := v.offeredHere.filter fun d => d.triggers.any (phrase · == wanted)
  (matching.find? (!v.spent ·) <|> matching.head?).map (·.id)

/-- The first exit in a direction, a visible one if there is one. -/
def exitTowards? (d : Direction) : Option Exit :=
  let exits := (v.exitsFrom v.state.location).filter fun e => e.direction.any d.isNamed
  exits.find? v.exitVisible <|> exits.head?

/-- The first exit from here with this phrase, else the first to a place of this name. -/
def exitByPhrase? (wanted : String) : Option EntityId :=
  let exits := v.exitsFrom v.state.location
  let leadsTo (e : Exit) := (v.location? e.destination).any fun d =>
    phrase d.name == wanted || d.aliases.any (phrase · == wanted)
  ((exits.find? fun e => e.triggers.any (phrase · == wanted)) <|> exits.find? leadsTo).map (·.id)

end View

def Lookup.read (phrase : String) (build : EntityKey → Intent) : Lookup → Interpretation
  | found key => .intent (build key)
  | ambiguous names => .ambiguous names
  | missing => .unrecognized (.unknownTarget phrase)

namespace Interpreter

variable (r : Interpreter) (v : View)

/-- Takes one interaction into account: those whose phrases fit best so far and how well. -/
def consider (wanted : String) (acc : List Interaction × Float) (d : Interaction) :
    List Interaction × Float :=
  let (chosen, top) := acc
  let score := Matching.best (d.triggers.map fun t => r.matching.similarity wanted (phrase t))
  if score > top + scoreTolerance then ([d], score)
  else if score >= top - scoreTolerance then (chosen ++ [d], top)
  else acc

def similarInteraction (wanted : String) : Lookup :=
  match (v.offeredHere.foldl (r.consider wanted) ([], r.matching.threshold)).1 with
  | [] => .missing
  | [d] => .found (.interaction d.id)
  | ds => .ambiguous (ds.filterMap (·.triggers.head?))

/-- Reads a command. None means that the verb is unknown. -/
def readCommand (c : Command) : Option Interpretation :=
  let find (phrase : String) (kinds : List EntityKind) := r.matching.find v.vocabulary phrase kinds
  match c with
  | .move d =>
    match v.exitTowards? d with
    | some e => some (.intent (.move e.id))
    | none => some (.unrecognized (.noExit d))
  | .go target => some ((find target [.exit]).read target fun key => .move key.id)
  | .look none => some (.intent (.examine none))
  | .look (some target) => some ((find target []).read target fun key => .examine (some key))
  | .take item => some ((find item []).read item .take)
  | .drop item => some ((find item []).read item .drop)
  | .talk character _ => some ((find character []).read character .talk)
  | .use item target =>
    match find item [], target with
    | .found key, none => some (.intent (.use key none))
    | .found key, some target => some ((find target []).read target fun on => .use key (some on))
    | other, _ => some (other.read item fun key => .use key none)
  | .incomplete prompt => some (.unrecognized (.incomplete prompt))
  | .unknown _ => none

/-- Reads a line as far as it can be done without the companion. -/
def read (text : String) : Reading :=
  let wanted := phrase text
  if wanted.isEmpty then .settled (.intent (.examine none))
  else
    match v.exactInteraction? wanted with
    | some interaction => .settled (.intent (.interact interaction))
    | none =>
      let further (fallback : Unrecognized) : Reading :=
        match v.exitByPhrase? wanted with
        | some exit => .settled (.intent (.move exit))
        | none =>
          match r.similarInteraction v wanted with
          | .found key => .settled (.intent (.interact key.id))
          | .ambiguous names => .settled (.ambiguous names)
          | .missing => .open fallback
      match r.readCommand v (Command.parse text) with
      | some (.unrecognized (.unknownTarget target)) => further (.unknownTarget target)
      | some found => .settled found
      | none => further .noMatch

def requestFor (text : String) : IntentRequest where
  text
  vocabulary := v.vocabulary
  phrases := v.offeredHere.flatMap fun d => d.triggers.map fun t => (d.id, t)
  inventory := v.state.inventory

/-- What a reply of the companion amounts to. -/
def weigh (reply : IntentReply) : Interpretation :=
  if reply.confidence < r.ambiguityThreshold then .ambiguous [v.describe reply.intent]
  else .intent reply.intent

/-- What the companion is asked about a line, if it is asked at all. -/
def request? (text : String) : Option IntentRequest :=
  match r.companion, r.read v text with
  | some _, .open _ => some (requestFor v text)
  | _, _ => none

/-- Reads a line. -/
def interpret (text : String) : Interpretation :=
  match r.read v text with
  | .settled i => i
  | .open fallback =>
    match r.companion.bind fun ask => ask (requestFor v text) with
    | some reply => r.weigh v reply
    | none => .unrecognized fallback

end Interpreter
end Storyworld
