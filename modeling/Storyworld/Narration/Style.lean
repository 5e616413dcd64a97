/-!
# Narrative style

How the templates speak: their tone, the person in which the player is addressed, and how much of a
scene they spell out.
-/

namespace Storyworld.Narration

/-- The register of the lines. -/
inductive Tone
  | formal | casual | dramatic | humorous
  deriving DecidableEq, Repr, Inhabited

namespace Tone

def all : List Tone := [formal, casual, dramatic, humorous]

def name : Tone → String
  | formal => "formal"
  | casual => "casual"
  | dramatic => "dramatic"
  | humorous => "humorous"

end Tone

/-- Who the player is in the prose. -/
inductive Perspective
  | secondPerson | thirdPerson
  deriving DecidableEq, Repr, Inhabited

namespace Perspective

def all : List Perspective := [secondPerson, thirdPerson]

def name : Perspective → String
  | secondPerson => "second_person"
  | thirdPerson => "third_person"

end Perspective

/-- How much of a scene is told. -/
inductive Verbosity
  /-- Heading, who and what is here, and the exits in brackets. -/
  | terse
  /-- The description too. -/
  | normal
  /-- The author's guidance too. -/
  | verbose
  deriving DecidableEq, Repr

namespace Verbosity

instance : Inhabited Verbosity := ⟨normal⟩

def all : List Verbosity := [terse, normal, verbose]

def name : Verbosity → String
  | terse => "terse"
  | normal => "normal"
  | verbose => "verbose"

end Verbosity

/-- How the templates speak. -/
structure Style where
  tone : Tone := .formal
  perspective : Perspective := .secondPerson
  verbosity : Verbosity := .normal
  /-- The name of the player in the third person. -/
  playerName : Option String := none
  deriving DecidableEq, Repr, Inhabited

namespace Style

variable (s : Style)

/-- The player as the subject of a sentence. -/
def subject : String :=
  match s.perspective with
  | .secondPerson => "You"
  | .thirdPerson => s.playerName.getD "The traveller"

def object : String :=
  match s.perspective with
  | .secondPerson => "you"
  | .thirdPerson => s.playerName.getD "the traveller"

def possessive : String :=
  match s.perspective with
  | .secondPerson => "your"
  | .thirdPerson => "their"

/-- The form of a verb that agrees with the player. -/
def agree (second third : String) : String :=
  match s.perspective with
  | .secondPerson => second
  | .thirdPerson => third

end Style
end Storyworld.Narration
