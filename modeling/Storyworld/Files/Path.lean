/-!
# Paths

A path names a file by the directories that lead to it, separated by slashes. Empty parts and single
dots name nothing; two dots lead back up.
-/

namespace Storyworld.Path

def splitSlashes : List Char → List (List Char)
  | [] => [[]]
  | c :: cs =>
    if c = '/' then [] :: splitSlashes cs
    else
      match splitSlashes cs with
      | [] => [[c]]
      | part :: parts => (c :: part) :: parts

/-- The parts of a path that name something, in order. -/
def parts (path : String) : List String :=
  ((splitSlashes path.toList).map String.ofList).filter fun p => p != "" && p != "."

/-- Whether the path says of itself that it names a directory. -/
def endsOpen (path : String) : Bool :=
  match (splitSlashes path.toList).getLast? with
  | some part => part == [] || part == ['.']
  | none => true

def fileName? (path : String) : Option String := (parts path).getLast?.filter (· != "..")

/-- What follows the last dot of a file name; a dot at its very front does not count. -/
def extension? (path : String) : Option String :=
  (fileName? path).bind fun name =>
    let after := (name.toList.reverse.takeWhile (· != '.')).reverse
    if after.length + 1 < name.length then some (String.ofList after) else none

def entry (dir name : String) : String := if dir == "" then name else dir ++ "/" ++ name

end Storyworld.Path
