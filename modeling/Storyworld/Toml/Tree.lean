import Storyworld.Datum

/-!
# Tables under construction

A TOML document builds its tables piece by piece, and who made a table decides who may still add to
it. A table that was only passed through on the way to another one may be given its own header; one
made by a dotted key takes further dotted keys from the same place; one with a header of its own,
and everything inside a value, is finished.
-/

namespace Storyworld.Toml

/-- How a table came about. -/
inductive Origin
  /-- By a header or braces of its own, or as the document itself. -/
  | own
  /-- On the way to a table below it. -/
  | passed
  /-- By a dotted key. -/
  | dotted
  deriving DecidableEq, Repr

/-- A part of the tree of tables. -/
inductive Node
  | value (d : Datum)
  | table (origin : Origin) (entries : List (String × Node))
  /-- The tables of an array, last first. -/
  | array (tables : List (List (String × Node)))

abbrev Entries := List (String × Node)

namespace Entries

def find? (es : Entries) (name : String) : Option Node := (List.find? (·.1 == name) es).map (·.2)

/-- Replaces the part of a name, or adds it at the end. -/
def put (es : Entries) (name : String) (n : Node) : Entries :=
  if es.any (·.1 == name) then es.map fun e => if e.1 == name then (name, n) else e
  else es ++ [(name, n)]

def drop (es : Entries) (name : String) : Entries := es.filter (·.1 != name)

/-- Changes the table at the end of a path from a table, whose way of coming about it is given too.
Tables on the way are made if they are missing. Headers pass through the last table of an array;
dotted keys only through tables that have no header. -/
def descend (viaDots : Bool) (change : Origin → Entries → Option Entries) (origin : Origin)
    (es : Entries) : List String → Option Entries
  | [] => change origin es
  | name :: path =>
    match (es.find? name).getD (.table (if viaDots then .dotted else .passed) []) with
    | .value _ => none
    | .array [] => none
    | .array (last :: others) =>
      (descend viaDots change .own last path).map fun new => es.put name (.array (new :: others))
    | .table o inner =>
      if viaDots && o == .own then none
      else (descend viaDots change o inner path).map fun new => es.put name (.table o new)

/-- Adds a value at a dotted key. The table that takes it must have been made by dots too. -/
def addValue (es : Entries) (path : List String) (name : String) (n : Node) : Option Entries :=
  descend true
    (fun origin inner =>
      if (origin == .dotted) == path.isEmpty || (inner.find? name).isSome then none
      else some (inner ++ [(name, n)]))
    .own es path

end Entries

mutual
/-- What a finished tree says. -/
def Node.datum : Node → Datum
  | .value d => d
  | .table _ entries => .record (fieldsOf entries)
  | .array tables => .list (recordsOf tables).reverse
def fieldsOf : List (String × Node) → List (String × Datum)
  | [] => []
  | (name, n) :: es => (name, n.datum) :: fieldsOf es
def recordsOf : List (List (String × Node)) → List Datum
  | [] => []
  | es :: tables => .record (fieldsOf es) :: recordsOf tables
end

end Storyworld.Toml
