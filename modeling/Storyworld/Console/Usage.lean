import Storyworld.Console.Arguments

/-!
# Usage texts

What the program says about itself when asked for help or for its version.
-/

namespace Storyworld.Console

def programName : String := "loom"

def programVersion : String := "0.1.0"

def programPurpose : String := "Storyloom - play and check authored story worlds"

def Verb.purpose : Verb → String
  | check => "Load a world and report integrity problems"
  | play => "Play a world interactively"
  | replay => "Run actions from a script, one per line"

def Opt.purpose : Verb → Opt → String
  | .check, .dir => "World directory or document (default: current directory) [default: .]"
  | _, .dir => "World directory or document [default: .]"
  | _, .script => "Script file; blank lines and `#` comments are skipped"
  | _, .load => "Resume from a save file"
  | _, .save => "Write the final state to this file"
  | _, .config => "Engine config (TOML)"
  | _, .verbose => "Log pipeline decisions to stderr"
  | _, .help => "Print help"
  | _, .version => "Print version"

/-- An option with its letter, as it stands in a list of options. -/
def Opt.entry (o : Opt) : String :=
  match o.short? with
  | some c => String.ofList ['-', c, ',', ' '] ++ o.usage
  | none => "    " ++ o.usage

/-- A list of entries with their explanations in one column. -/
def explained (entries : List (String × String)) : String :=
  let widest := (entries.map (·.1.length)).foldl max 0
  let line (e : String × String) : String :=
    "  " ++ e.1 ++ String.ofList (List.replicate (widest - e.1.length + 2) ' ') ++ e.2
  String.intercalate "\n" (entries.map line)

def programHelp : String :=
  let commands := Verb.all.map (fun v => (v.name, v.purpose)) ++
    [("help", "Print this message or the help of the given subcommand(s)")]
  let options := [Opt.verbose, .help, .version].map fun o => (o.entry, o.purpose .check)
  String.intercalate "\n\n" [programPurpose, "Usage: " ++ programName ++ " [OPTIONS] <COMMAND>",
    "Commands:\n" ++ explained commands, "Options:\n" ++ explained options]

def Verb.help (v : Verb) : String :=
  let options := v.options.map fun o => (o.entry, o.purpose v)
  let needed := match v with
    | .replay => " " ++ Opt.script.usage
    | _ => ""
  String.intercalate "\n\n" [v.purpose,
    "Usage: " ++ programName ++ " " ++ v.name ++ " [OPTIONS]" ++ needed,
    "Options:\n" ++ explained options]

def helpText : Option Verb → String
  | none => programHelp
  | some v => v.help

/-- The version, of the program or of one of its commands. -/
def versionText : Option Verb → String
  | none => programName ++ " " ++ programVersion
  | some v => programName ++ "-" ++ v.name ++ " " ++ programVersion

end Storyworld.Console
