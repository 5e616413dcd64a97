import Storyworld.Entity

/-!
# Placements and overrides

Where an item is, and the fields of an entity that play has changed. An override holds only what
differs from the authored entity; one without fields has no reason to be kept.
-/

namespace Storyworld

/-- Where an item is. -/
inductive Placement
  /-- Lying in a location. -/
  | location (id : EntityId)
  | carried
  /-- Held by a character. -/
  | holder (id : EntityId)
  /-- Out of play, but not for good. -/
  | limbo
  | destroyed
  deriving DecidableEq, Repr, Inhabited

namespace Placement

def isIn (p : Placement) (location : EntityId) : Bool := p == .location location

def inPlay : Placement → Bool
  | limbo | destroyed => false
  | _ => true

def location? : Placement → Option EntityId
  | location l => some l
  | _ => none

/-- The character who holds the item. -/
def holder? : Placement → Option EntityId
  | holder c => some c
  | _ => none

end Placement

/-- The fields of an entity that play has changed. -/
inductive Override
  | location (description : Option String)
  | item (placement : Option Placement) (description : Option String)
  | character (location : Option EntityId) (description : Option String)
  | exit (locked hidden : Option Bool) (description : Option String)
  deriving DecidableEq, Repr

namespace Override

/-- The override of a kind that changes nothing. -/
def empty? : EntityKind → Option Override
  | .location => some (location none)
  | .item => some (item none none)
  | .character => some (character none none)
  | .exit => some (exit none none none)
  | _ => none

def kind : Override → EntityKind
  | location _ => .location
  | item _ _ => .item
  | character _ _ => .character
  | exit _ _ _ => .exit

def fieldCount : Override → Nat
  | location d => d.toList.length
  | item p d => p.toList.length + d.toList.length
  | character l d => l.toList.length + d.toList.length
  | exit k h d => k.toList.length + h.toList.length + d.toList.length

def isEmpty (o : Override) : Bool := o.fieldCount == 0

def description? : Override → Option String
  | location d | item _ d | character _ d | exit _ _ d => d

def placement? : Override → Option Placement
  | item p _ => p
  | _ => none

def targets : Override → List EntityKey
  | item (some (.location l)) _ => [.location l]
  | item (some (.holder c)) _ => [.character c]
  | character (some l) _ => [.location l]
  | _ => []

def withDescription (d : Option String) : Override → Override
  | location _ => location d
  | item p _ => item p d
  | character l _ => character l d
  | exit k h _ => exit k h d

/-- Sets the placement of an item; other overrides have none. -/
def withPlacement (p : Option Placement) : Override → Override
  | item _ d => item p d
  | o => o

def withLocation (l : Option EntityId) : Override → Override
  | character _ d => character l d
  | o => o

def withLocked (k : Option Bool) : Override → Override
  | exit _ h d => exit k h d
  | o => o

def withHidden (h : Option Bool) : Override → Override
  | exit k _ d => exit k h d
  | o => o

end Override
end Storyworld
