import Storyworld.Direction

/-!
# Commands

The verbs of a typed line. A known verb takes the rest of the line as its object, less a particle
that goes with the verb; where a verb needs an object and none is left, the command is incomplete
and asks for it. Objects are phrases of the line and are looked up later.
-/

namespace Storyworld

/-- The question to a player who left out the object. -/
inductive Prompt
  | goWhere | takeWhat | dropWhat | talkToWhom | useWhat
  deriving DecidableEq, Repr

namespace Prompt

def all : List Prompt := [goWhere, takeWhat, dropWhat, talkToWhom, useWhat]

def text : Prompt → String
  | goWhere => "Go where?"
  | takeWhat => "Take what?"
  | dropWhat => "Drop what?"
  | talkToWhom => "Talk to whom?"
  | useWhat => "Use what?"

end Prompt

/-- A line read as a verb and its objects. -/
inductive Command
  | move (direction : Direction)
  | go (target : String)
  | look (target : Option String)
  | take (item : String)
  | drop (item : String)
  | talk (character : String) (topic : Option String)
  | use (item : String) (target : Option String)
  /-- A verb without its object. -/
  | incomplete (prompt : Prompt)
  /-- No known verb. -/
  | unknown (input : String)
  deriving DecidableEq, Repr

/-- What a verb asks for. -/
inductive Verb
  | move | look | take | drop | talk | use
  deriving DecidableEq, Repr

namespace Verb

def all : List Verb := [move, look, take, drop, talk, use]

def synonyms : Verb → List String
  | move => ["go", "move", "walk", "head", "travel", "run"]
  | look => ["look", "l", "examine", "ex", "x", "describe", "inspect", "read", "search"]
  | take => ["take", "get", "pick", "grab"]
  | drop => ["drop", "put", "leave", "discard"]
  | talk => ["talk", "speak", "ask", "chat", "converse", "greet"]
  | use => ["use", "apply", "activate", "light"]

/-- The verb of a word in lowercase. -/
def ofWord? (word : String) : Option Verb := all.find? (·.synonyms.contains word)

end Verb

namespace Command

open Text

/-- Whether a word is one of the particles, whatever its case. -/
def isParticle (particles : List String) (word : String) : Bool :=
  particles.any (eqIgnoreAsciiCase word)

def skipParticle (particles : List String) : List String → List String
  | [] => []
  | w :: ws => if isParticle particles w then ws else w :: ws

def skipLastParticle (particles : List String) (ws : List String) : List String :=
  match ws.getLast? with
  | some w => if isParticle particles w then ws.dropLast else ws
  | none => []

/-- The phrase of some words, if there are any. -/
def phrase? (ws : List String) : Option String := if ws.isEmpty then none else some (unwords ws)

/-- The phrases before and after the first particle. -/
def splitAt (particles : List String) (ws : List String) : List String × List String :=
  (ws.takeWhile (!isParticle particles ·), (ws.dropWhile (!isParticle particles ·)).drop 1)

/-- Reads the object of a move: a direction, or the name of a place. -/
def ofMove (rest : List String) : Command :=
  match skipParticle ["to", "towards", "into"] rest with
  | [] => incomplete .goWhere
  | [w] =>
    match Direction.parse? w with
    | some d => move d
    | none => go w
  | ws => go (unwords ws)

/-- Reads the object of a look, which may be left out. -/
def ofLook (rest : List String) : Command :=
  look (phrase? (skipParticle ["at", "around", "in"] rest))

def ofTake (rest : List String) : Command :=
  match phrase? (skipParticle ["up"] rest) with
  | none => incomplete .takeWhat
  | some item => take item

def ofDrop (rest : List String) : Command :=
  match phrase? (skipLastParticle ["down"] rest) with
  | none => incomplete .dropWhat
  | some item => drop item

def ofTalk (rest : List String) : Command :=
  match skipParticle ["to", "with"] rest with
  | [] => incomplete .talkToWhom
  | ws =>
    let (who, topic) := splitAt ["about"] ws
    talk (unwords who) (phrase? topic)

def ofUse (rest : List String) : Command :=
  let (item, target) := splitAt ["on", "with"] rest
  match phrase? item with
  | none => incomplete .useWhat
  | some item => use item (phrase? target)

def ofVerb : Verb → List String → Command
  | .move => ofMove
  | .look => ofLook
  | .take => ofTake
  | .drop => ofDrop
  | .talk => ofTalk
  | .use => ofUse

/-- Reads a line. A direction on its own is a move; an empty line looks around. -/
def parse (input : String) : Command :=
  match words input with
  | [] => look none
  | w :: rest =>
    match (if rest.isEmpty then Direction.parse? w else none), Verb.ofWord? (lowercase w) with
    | some d, _ => move d
    | none, some verb => ofVerb verb rest
    | none, none => unknown (trim input)

end Command
end Storyworld
