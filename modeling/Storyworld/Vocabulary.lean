import Storyworld.View
import Storyworld.Text.Phrase
import Storyworld.Text.Similarity

/-!
# Vocabulary

The names in reach of the player: the location, the exits that leave it, the items lying here or
carried, and the characters standing here. A phrase is looked up among them: an exact name beats one
that holds all words of the phrase, which beats a similar one. Several candidates that do equally
well leave the phrase ambiguous.
-/

namespace Storyworld

open Text

/-- Something the player may mean. -/
structure Candidate where
  key : EntityKey
  /-- The name that is shown. -/
  name : String
  /-- The phrases it answers to. -/
  names : List String
  deriving DecidableEq, Repr

/-- What a phrase was found to mean. -/
inductive Lookup
  | found (key : EntityKey)
  /-- The names of candidates that do equally well. -/
  | ambiguous (names : List String)
  | missing
  deriving DecidableEq, Repr

namespace View

variable (v : View)

def locationCandidate (d : Location) : Candidate where
  key := .location v.state.location
  name := d.name
  names := phrase d.name :: "here" :: d.aliases.map phrase

/-- An exit as a candidate; it answers to its destination too. -/
def exitCandidate (e : Exit) : Candidate :=
  let destination := v.location? e.destination
  { key := .exit e.id
    name := (e.direction <|> destination.map (·.name)).getD e.id
    names := e.triggers.map phrase ++ e.direction.toList.map phrase ++
      destination.toList.flatMap fun d => phrase d.name :: d.aliases.map phrase }

def itemCandidate (d : Item) : Candidate where
  key := .item d.id
  name := d.name
  names := phrase d.name :: d.aliases.map phrase

def characterCandidate (d : Character) : Candidate where
  key := .character d.id
  name := d.name
  names := phrase d.name :: d.aliases.map phrase

/-- Keeps the first of the items with one identifier. -/
def distinctItems (seen : List EntityId) : List Item → List Item
  | [] => []
  | d :: ds =>
    if seen.contains d.id then distinctItems seen ds else d :: distinctItems (d.id :: seen) ds

def vocabulary : List Candidate :=
  let here := v.state.location
  (v.location? here).toList.map v.locationCandidate ++
  (v.exitsFrom here).map v.exitCandidate ++
  (distinctItems [] (v.itemsAt here ++ v.inventory)).map itemCandidate ++
  (v.charactersAt here).map characterCandidate

end View

/-- How phrases are compared: how similar two of them are, and from where on that counts. -/
structure Matching where
  similarity : String → String → Float := similarity
  threshold : Float

/-- Scores nearer than this are equal. -/
def scoreTolerance : Float := 2.220446049250313e-16

namespace Matching

variable (m : Matching)

/-- How well a name fits a phrase: three for the same, two for one that holds all words of the
phrase, between one and two for a similar one, else zero. -/
def score (phrase name : String) : Float :=
  if phrase == name then 3.0
  else if (words phrase).all (words name).contains then 2.0
  else
    let sim := m.similarity phrase name
    if sim >= m.threshold then 1.0 + sim else 0.0

/-- The greatest of some scores, at least zero. -/
def best (scores : List Float) : Float := scores.foldl (fun a b => if a < b then b else a) 0.0

/-- Takes one candidate into account: the best ones so far and their score. -/
def consider (phrase : String) (acc : List Candidate × Float) (c : Candidate) :
    List Candidate × Float :=
  let (chosen, top) := acc
  let score := best (c.names.map (m.score phrase))
  if score <= 0.0 then acc
  else if score > top + scoreTolerance then ([c], score)
  else if (score - top).abs <= scoreTolerance && !chosen.any (·.key == c.key) then
    (chosen ++ [c], top)
  else acc

/-- Looks a phrase up among candidates, of some kinds or, if none is given, of all. -/
def find (candidates : List Candidate) (text : String) (kinds : List EntityKind) : Lookup :=
  let wanted := phrase text
  if wanted.isEmpty then .missing
  else
    let eligible := candidates.filter fun c => kinds.isEmpty || kinds.contains c.key.kind
    match (eligible.foldl (m.consider wanted) ([], 0.0)).1 with
    | [] => .missing
    | [c] => .found c.key
    | cs => .ambiguous (cs.map (·.name))

end Matching
end Storyworld
