import Storyworld.Datum.Numeral

/-!
# Data

What a data document says, whatever the format it is written in: the tree of its values. The fields
of a record are kept in the order in which they were written, repeated ones included, since the
formats and the readers differ in what they make of them.
-/

namespace Storyworld

/-- A value of a data document. -/
inductive Datum
  | null
  | bool (b : Bool)
  | int (n : Int)
  /-- A number that is not written as an integer, or is out of the range of integers. -/
  | real (x : Numeral)
  | text (s : String)
  | list (items : List Datum)
  | record (fields : List (String × Datum))
  deriving Repr

namespace Datum

instance : Inhabited Datum := ⟨null⟩

/-- The formats of data documents. -/
inductive Format
  | json | toml
  deriving DecidableEq, Repr

/-- The value of a field, the last one if it is repeated. -/
def field? (d : Datum) (name : String) : Option Datum :=
  match d with
  | record fields => (fields.reverse.find? (·.1 == name)).map (·.2)
  | _ => none

/-- Whether the datum stands for nothing more to say: null, and in a format without null an empty
list or record. -/
def isUnit : Format → Datum → Bool
  | .json, null => true
  | .toml, list [] | .toml, record [] => true
  | _, _ => false

/-- Some records are strict about fields that they do not know. -/
inductive Strictness
  | strict | lenient
  deriving DecidableEq, Repr

/-- The values of the named fields of a record, in the order of the names. A named field must not
be repeated, and a strict record has no other fields. A record may also be a list of its values in
the order of the names; a format may be lenient about values beyond those. -/
def fields? (fmt : Format) (st : Strictness) (names : List String) : Datum →
    Option (List (Option Datum))
  | record fields =>
    if names.all (fun n => (fields.filter (·.1 == n)).length ≤ 1) &&
        (st == .lenient || fields.all fun f => names.contains f.1) then
      some (names.map fun n => (fields.find? (·.1 == n)).map (·.2))
    else none
  | list items =>
    if items.length ≤ names.length || fmt == .toml then
      some (names.mapIdx fun i _ => items[i]?)
    else none
  | _ => none

/-- The values of the named fields, where a list in the place of the record gives every value. -/
def wholeFields? (fmt : Format) (st : Strictness) (names : List String) (d : Datum) :
    Option (List (Option Datum)) :=
  match d with
  | list items => if items.length < names.length then none else d.fields? fmt st names
  | _ => d.fields? fmt st names

/-- The text of a tag field together with the record of the other fields. A list in the place of the
record begins with the tag. -/
def tagged? (tag : String) : Datum → Option (String × Datum)
  | record fields =>
    match fields.filter (·.1 == tag) with
    | [(_, text t)] => some (t, record (fields.filter (·.1 != tag)))
    | _ => none
  | list (text t :: items) => some (t, list items)
  | _ => none

/-! ### Reading simple values -/

def text? : Datum → Option String
  | text s => some s
  | _ => none

def bool? : Datum → Option Bool
  | bool b => some b
  | _ => none

def int? : Datum → Option Int
  | int n => some n
  | _ => none

/-- Reads a number, integer or not. -/
def float? : Format → Datum → Option Float
  | _, int n => some (if n < 0 then -Float.ofNat n.natAbs else Float.ofNat n.natAbs)
  | .json, real x => x.scaled?
  | .toml, real x => some x.nearest
  | _, _ => none

def list? {α : Type} (read : Datum → Option α) : Datum → Option (List α)
  | list items => items.mapM read
  | _ => none

def nullable? {α : Type} (read : Datum → Option α) : Datum → Option (Option α)
  | null => some none
  | d => (read d).map some

/-- Reads a name among those of an enumeration, written as a text, or as a record whose one field
has nothing more to say. -/
def choice? {α : Type} (fmt : Format) (all : List α) (name : α → String) : Datum → Option α
  | text s => all.find? (name · == s)
  | record [(s, d)] => if d.isUnit fmt then all.find? (name · == s) else none
  | _ => none

/-! ### Reading fields -/

/-- A field that must be there. -/
def need {α : Type} (read : Datum → Option α) (f : Option Datum) : Option α := f.bind read

/-- A field that has a default. -/
def orElse {α : Type} (default : α) (read : Datum → Option α) : Option Datum → Option α
  | none => some default
  | some d => read d

/-- A field that may be missing or null. -/
def maybe {α : Type} (read : Datum → Option α) : Option Datum → Option (Option α)
  | none => some none
  | some d => d.nullable? read

/-! ### Writing -/

def ofOption {α : Type} (write : α → Datum) : Option α → Datum
  | none => null
  | some a => write a

def ofList {α : Type} (write : α → Datum) (items : List α) : Datum := list (items.map write)

end Datum
end Storyworld
