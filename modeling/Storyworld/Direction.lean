import Storyworld.Text.Lowercase
import Storyworld.Text.Words

/-!
# Directions

The ways in which an exit may lead, and the words for them.
-/

namespace Storyworld

inductive Direction
  | north | south | east | west | up | down
  | northeast | northwest | southeast | southwest
  | inward | outward
  deriving DecidableEq, Repr, Inhabited

namespace Direction

def all : List Direction :=
  [north, south, east, west, up, down, northeast, northwest, southeast, southwest, inward, outward]

def name : Direction → String
  | north => "north"
  | south => "south"
  | east => "east"
  | west => "west"
  | up => "up"
  | down => "down"
  | northeast => "northeast"
  | northwest => "northwest"
  | southeast => "southeast"
  | southwest => "southwest"
  | inward => "in"
  | outward => "out"

def shortName : Direction → String
  | north => "n"
  | south => "s"
  | east => "e"
  | west => "w"
  | up => "u"
  | down => "d"
  | northeast => "ne"
  | northwest => "nw"
  | southeast => "se"
  | southwest => "sw"
  | inward => "inside"
  | outward => "outside"

/-- The direction of a word, whatever its case. -/
def parse? (s : String) : Option Direction :=
  let word := Text.lowercase s
  all.find? fun d => d.name == word || d.shortName == word

/-- Whether an authored direction is this one; blanks around it do not count. -/
def isNamed (d : Direction) (authored : String) : Bool := parse? (Text.trim authored) == some d

end Direction
end Storyworld
