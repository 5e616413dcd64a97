import Storyworld.Text.Lowercase
import Storyworld.Text.Words

/-!
# Meta commands

Lines that speak to the program and not to the story. They take no turn.
-/

namespace Storyworld.Console

open Text

/-- A line to the program. -/
inductive MetaCommand
  | inventory
  | status
  /-- Write a save, if it is said where. -/
  | save (path : Option String)
  | help
  | quit
  deriving DecidableEq, Repr

namespace MetaCommand

def splitFirst (cs : List Char) : List Char × List Char :=
  (cs.takeWhile (· != ' '), (cs.dropWhile (· != ' ')).drop 1)

/-- Reads a line. A meta command other than `save` stands alone. -/
def parse? (line : String) : Option MetaCommand :=
  let (first, rest) := splitFirst (trim line).toList
  let rest := trim (String.ofList rest)
  match lowercase (String.ofList first), rest.isEmpty with
  | "inventory", true | "i", true | "inv", true => some .inventory
  | "status", true => some .status
  | "save", alone => some (.save (if alone then none else some rest))
  | "help", true | "?", true => some .help
  | "quit", true | "exit", true | "q", true => some .quit
  | _, _ => none

def helpText : String :=
  String.intercalate "\n" [
    "Type what you want to do, e.g. `go north`, `take the lamp`, `talk to jenkins`.",
    "  look             describe your surroundings",
    "  inventory, i     list what you carry",
    "  status           show progress in the current act",
    "  save <path>      write a save file",
    "  help             show this help",
    "  quit             leave the game"]

end MetaCommand
end Storyworld.Console
