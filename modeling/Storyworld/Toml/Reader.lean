import Storyworld.Toml.Lexical
import Storyworld.Toml.Tree

/-!
# Reading TOML

A document is read line by line: a header opens a table, and the lines below it fill it. The table
that is open is kept apart and put into the document when the next header comes.
-/

namespace Storyworld.Toml

/-! ### Values -/

mutual
/-- Reads a value; `depth` counts how much deeper values may be nested and `n` the steps left. -/
def readValue? (depth : Nat) (cs : List Char) : Nat → Option (Datum × List Char)
  | 0 => none
  | n + 1 =>
    match cs with
    | '[' :: cs => if depth ≤ 1 then none else readItems? (depth - 1) [] cs n
    | '\x7b' :: cs =>
      if depth ≤ 1 then none
      else
        match skipBlanks cs with
        | '\x7d' :: cs => some (.record [], cs)
        | cs => readFields? (depth - 1) [] cs n
    | 't' :: 'r' :: 'u' :: 'e' :: cs => some (.bool true, cs)
    | 'f' :: 'a' :: 'l' :: 's' :: 'e' :: cs => some (.bool false, cs)
    | '"' :: _ | '\'' :: _ => (readString? cs).map fun (s, cs) => (.text s, cs)
    | cs => readNumber? cs
/-- Reads the items of a list up to its end; those read are given, last first. -/
def readItems? (depth : Nat) (done : List Datum) (cs : List Char) :
    Nat → Option (Datum × List Char)
  | 0 => none
  | n + 1 =>
    match skipSpace cs with
    | ']' :: cs => some (.list done.reverse, cs)
    | cs =>
      match readValue? depth cs n with
      | none => none
      | some (d, cs) =>
        match skipSpace cs with
        | ',' :: cs => readItems? depth (d :: done) cs n
        | ']' :: cs => some (.list (d :: done).reverse, cs)
        | _ => none
/-- Reads the fields of a table in braces up to its end, which no comma precedes. -/
def readFields? (depth : Nat) (done : Entries) (cs : List Char) : Nat → Option (Datum × List Char)
  | 0 => none
  | n + 1 =>
    match readKey? cs with
    | some (key, '=' :: cs) =>
      match readValue? depth (skipBlanks cs) n with
      | none => none
      | some (d, cs) =>
        match done.addValue key.dropLast (key.getLastD "") (.value d), skipBlanks cs with
        | some done, ',' :: cs => readFields? depth done cs n
        | some done, '\x7d' :: cs => some (.record (fieldsOf done), cs)
        | _, _ => none
    | _ => none
end

/-! ### Lines -/

/-- A document that is being read, with the table that is open. -/
structure Builder where
  root : Entries := []
  /-- The path of the open table; none at the top of the document. -/
  path : List String := []
  /-- Whether the open table is one of an array. -/
  inArray : Bool := false
  /-- The open table. -/
  current : Entries := []

namespace Builder

def close? (b : Builder) : Option Entries :=
  match b.path.getLast? with
  | none => some b.current
  | some name =>
    Entries.descend false
      (fun _ es =>
        match es.find? name with
        | none =>
          some (es ++ [(name, if b.inArray then .array [b.current] else .table .own b.current)])
        | some (.array tables) =>
          if b.inArray then some (es.put name (.array (b.current :: tables))) else none
        | some _ => none)
      .own b.root b.path.dropLast

/-- Opens the table of a header. What was passed through on the way to tables below is taken up. -/
def openTable? (b : Builder) (path : List String) : Option Builder := do
  let root ← b.close?
  let name ← path.getLast?
  -- The part that has the name of the table, if it may be taken up.
  let mut taken : Entries := []
  let parent ← Entries.descend false (fun _ es => some es) .own root path.dropLast
  match findAt? parent path with
  | none => pure ()
  | some (.table .passed entries) => taken := entries
  | some _ => failure
  let root ← Entries.descend false (fun _ es => some (es.drop name)) .own parent path.dropLast
  return { root, path, current := taken }
where
  /-- The part at the end of a path. -/
  findAt? (es : Entries) : List String → Option Node
    | [] => none
    | [name] => es.find? name
    | name :: path =>
      match es.find? name with
      | some (.table _ inner) => findAt? inner path
      | some (.array (last :: _)) => findAt? last path
      | _ => none

def openArray? (b : Builder) (path : List String) : Option Builder := do
  let root ← b.close?
  let name ← path.getLast?
  let root ← Entries.descend false
    (fun _ es =>
      match es.find? name with
      | none => some (es ++ [(name, .array [])])
      | some (.array _) => some es
      | some _ => none)
    .own root path.dropLast
  return { root, path, inArray := true }

/-- Adds a value to the open table. -/
def add? (b : Builder) (key : List String) (d : Datum) : Option Builder :=
  (b.current.addValue key.dropLast (key.getLastD "") (.value d)).map fun current =>
    { b with current }

end Builder

def readLine? (b : Builder) (cs : List Char) : Option (Builder × List Char) :=
  match skipBlanks cs with
  | '[' :: '[' :: cs => do
    let (path, cs) ← readKey? cs
    match cs with
    | ']' :: ']' :: cs =>
      let cs ← endLine? cs
      let b ← b.openArray? path
      return (b, cs)
    | _ => none
  | '[' :: cs => do
    let (path, cs) ← readKey? cs
    match cs with
    | ']' :: cs =>
      let cs ← endLine? cs
      let b ← b.openTable? path
      return (b, cs)
    | _ => none
  | cs =>
    match endLine? cs with
    | some rest => some (b, rest)
    | none => do
      let (key, cs) ← readKey? cs
      match cs with
      | '=' :: cs =>
        let (d, cs) ← readValue? nestingLimit (skipBlanks cs) (2 * cs.length + 2)
        let cs ← endLine? cs
        let b ← b.add? key d
        return (b, cs)
      | _ => none

def readLines? (b : Builder) (cs : List Char) : Nat → Option Entries
  | 0 => none
  | n + 1 =>
    match cs with
    | [] => b.close?
    | cs =>
      match readLine? b cs with
      | none => none
      | some (b, cs) => readLines? b cs n

/-- Reads a TOML text; a byte order mark in front does not count. -/
def parse? (s : String) : Option Datum :=
  let cs := match s.toList with
    | '\ufeff' :: cs => cs
    | cs => cs
  (readLines? {} cs (cs.length + 1)).map fun es => .record (fieldsOf es)

end Storyworld.Toml
