import Storyworld.Narration.Style
import Storyworld.Narration.Request
import Storyworld.Interpretation
import Storyworld.Verdict

/-!
# Templates

The lines in which a session speaks when nobody else writes its prose. They depend on nothing but
the style and what is to be told.
-/

namespace Storyworld.Narration

def lines (ls : List String) : String := String.intercalate "\n" ls

def commaList (names : List String) : String := String.intercalate ", " names

/-- What is said of an entity without description. -/
def defaultDescription : Option EntityKind → String
  | some .character => "A quiet figure."
  | some .location => "An unremarkable place."
  | some .item => "An ordinary-looking object."
  | _ => "You see nothing special."

def clarify (candidates : List String) : String :=
  match candidates, candidates.getLast? with
  | [], _ | _, none => "Could you be more specific?"
  | [one], _ => s!"Did you mean: {one}?"
  | many, some last => s!"Which do you mean: {commaList many.dropLast} or {last}?"

/-- The blocks that tell of a new act. -/
def actBlocks (t : Transition) : List String :=
  (t.gateBeat.bind (·.narrative)).toList ++
  [lines ([s!"*{t.name.getD t.destination}*"] ++ t.narrative.toList)]

namespace Style

variable (s : Style)

/-- The player and a verb that agrees. -/
def does (second third : String) : String := s.subject ++ " " ++ s.agree second third

/-- The guidance of an author, where it is told. -/
def told (guidance : Option String) : Option String :=
  if s.verbosity = .verbose then guidance else none

def arrival (location : String) : String :=
  match s.tone with
  | .formal => s.does "arrive" "arrives" ++ s!" at {location}."
  | .casual => s.does "head" "heads" ++ s!" into {location}."
  | .dramatic => s.does "set" "sets" ++ s!" foot upon {location}."
  | .humorous => s.does "wander" "wanders" ++ s!" into {location}. It's a place."

def take (item : String) : String :=
  match s.tone with
  | .formal => s.does "take" "takes" ++ s!" the {item}."
  | .casual => s.does "grab" "grabs" ++ s!" the {item}."
  | .dramatic => s.does "claim" "claims" ++ s!" the {item} as {s.possessive} own."
  | .humorous => s.does "pocket" "pockets" ++ s!" the {item}. Five-finger discount."

def drop (item : String) : String :=
  match s.tone with
  | .formal => s.does "set" "sets" ++ s!" down the {item}."
  | .casual => s.does "drop" "drops" ++ s!" the {item}."
  | .dramatic => s.does "relinquish" "relinquishes" ++ s!" the {item}."
  | .humorous =>
    s.does "toss" "tosses" ++ s!" the {item} aside. It wasn't that great anyway."

def noExit (direction : String) : String :=
  match s.tone with
  | .formal => s!"{s.subject} cannot go {direction} from here."
  | .casual => s!"There's no way {direction}."
  | .dramatic => s!"The path {direction} is barred to {s.object}."
  | .humorous => s.does "walk" "walks" ++ s!" {direction} into a wall. Ouch."

/-- The line gave no intent. -/
def deflection : Unrecognized → String
  | .noMatch =>
    match s.tone with
    | .formal => s!"{s.subject} cannot do that here."
    | .casual => "Not sure what you mean."
    | .dramatic => "The world does not answer."
    | .humorous => s.does "try" "tries" ++ " that. Nothing. Absolutely nothing."
  | .noExit direction => s.noExit direction.name
  | .unknownTarget target => s.does "see" "sees" ++ s!" no {Text.phrase target} here."
  | .incomplete prompt => prompt.text

def inventory (items : List String) : String :=
  let carrying := s.does "are" "is" ++ " carrying"
  if items.isEmpty then carrying ++ " nothing." else carrying ++ ": " ++ commaList items ++ "."

def nothingHappens : String :=
  match s.tone with
  | .formal | .casual => "Nothing happens."
  | .dramatic => "The moment passes in silence."
  | .humorous => "Nothing happens. Riveting."

def characterHere (character : String) : String :=
  match s.tone with
  | .formal => s!"{character} is here."
  | .casual => s!"{character} is hanging around."
  | .dramatic => s!"{character} stands before {s.object}."
  | .humorous => s!"{character} is here, doing... something."

def itemHere (item : String) : String :=
  match s.tone with
  | .formal => s.does "see" "sees" ++ s!" a {item} here."
  | .casual => s!"There's a {item} lying around."
  | .dramatic => s!"A {item} gleams in the shadows."
  | .humorous => s!"A {item} is just sitting here. Rude."

def exits (names : List String) : String :=
  match s.verbosity with
  | .terse => "[" ++ commaList names ++ "]"
  | .normal | .verbose => "Exits: " ++ commaList names

def scene (sc : Scene) : String :=
  lines <|
    [s!"**{sc.name}**"] ++
    (if s.verbosity ≠ .terse && !sc.description.isEmpty then [sc.description] else []) ++
    sc.characters.map s.characterHere ++
    sc.items.map s.itemHere ++
    (if sc.exits.isEmpty then [] else [s.exits sc.exits]) ++
    (s.told sc.guidance).toList

def examined (x : Examined) : String :=
  let description := if x.description.isEmpty then defaultDescription x.kind else x.description
  lines ([s!"**{x.name}**", description] ++ (s.told x.guidance).toList)

/-- The line of an effect on a subject, for the effects that have one. -/
def effectLine? (e : Effect) (subject object : String) (prior : Prior) : Option String :=
  match e with
  | .movePlayer _ => some (s.arrival subject)
  | .giveItem _ => some (s.take subject)
  | .placeItem _ _ =>
    if prior.inventory.contains subject then some (s.drop subject)
    else some s!"The {subject} turns up in {object}."
  | .removeItem _ =>
    some (s.subject ++ " no longer " ++ s.agree "have" "has" ++ s!" the {subject}.")
  | .destroyItem _ => some s!"The {subject} is destroyed."
  | .handItem _ _ => some s!"The {subject} passes to {object}."
  | .moveCharacter _ _ => some s!"{subject} heads for {object}."
  | .lockExit _ false => some s!"The way {subject} is open now."
  | .lockExit _ true => some s!"The way {subject} is shut."
  | .hideExit _ false => some s!"A way {subject} is revealed."
  | _ => none

/-- The line of an effect, with the guidance for its subject. -/
def toldEffect? (t : ToldEffect) (prior : Prior) : Option String :=
  t.subject.bind fun subject =>
    (s.effectLine? t.effect subject (t.object.getD "") prior).map fun line =>
      match s.told t.guidance with
      | some guidance => line ++ " " ++ guidance
      | none => line

def victory (n : VictoryNote) : String :=
  lines [n.narrative.getD (s.does "have" "has" ++ " won."), "*** The End ***"]

/-- A committed turn. -/
def render (r : Request) : String :=
  let effects := r.effects.filterMap (s.toldEffect? · r.prior)
  let blocks :=
    r.response.toList ++
    (r.examined.map s.examined).toList ++
    (if effects.isEmpty then [] else [lines effects]) ++
    (r.scene.map s.scene).toList ++
    r.beats.filterMap (·.narrative) ++
    r.transition.toList.flatMap actBlocks ++
    (r.victory.map s.victory).toList
  if blocks.isEmpty then s.nothingHappens else String.intercalate "\n\n" blocks

end Style
end Storyworld.Narration
