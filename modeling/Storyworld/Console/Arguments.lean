/-!
# Arguments

What the words after the program's name ask for: checking a world, playing one, or replaying a
script. Options may stand in any order; a value follows its option, or is joined to it.
-/

namespace Storyworld.Console

/-- An option of the command line. -/
inductive Opt
  | dir | script | load | save | config | verbose | help | version
  deriving DecidableEq, Repr

namespace Opt

def all : List Opt := [dir, script, load, save, config, verbose, help, version]

def long : Opt → String
  | dir => "dir"
  | script => "script"
  | load => "load"
  | save => "save"
  | config => "config"
  | verbose => "verbose"
  | help => "help"
  | version => "version"

def short? : Opt → Option Char
  | dir => some 'd'
  | script => some 's'
  | load => some 'l'
  | save => none
  | config => some 'c'
  | verbose => some 'v'
  | help => some 'h'
  | version => some 'V'

/-- Whether a value follows. -/
def takesValue : Opt → Bool
  | verbose | help | version => false
  | _ => true

/-- How messages write the option. -/
def usage (o : Opt) : String :=
  if o.takesValue then "--" ++ o.long ++ " <" ++ o.long.toUpper ++ ">" else "--" ++ o.long

end Opt

/-- The commands of the program. -/
inductive Verb
  | check | play | replay
  deriving DecidableEq, Repr

namespace Verb

def all : List Verb := [check, play, replay]

def name : Verb → String
  | check => "check"
  | play => "play"
  | replay => "replay"

def options : Verb → List Opt
  | check => [.dir, .verbose, .help, .version]
  | play => [.dir, .load, .config, .verbose, .help, .version]
  | replay => [.script, .dir, .load, .save, .config, .verbose, .help, .version]

end Verb

/-- What is wrong with a command line. -/
inductive UsageError
  | noCommand
  | unknownCommand (word : String)
  | unexpectedArgument (arg : String)
  | unexpectedValue (o : Opt) (value : String)
  | missingValue (o : Opt)
  | repeated (o : Opt)
  | missingOption (o : Opt)
  deriving DecidableEq, Repr

/-- The wording of what is wrong; without a command there is nothing to say but the usage. -/
def UsageError.message? : UsageError → Option String
  | noCommand => none
  | unknownCommand word => some s!"unrecognized subcommand '{word}'"
  | unexpectedArgument arg => some s!"unexpected argument '{arg}' found"
  | unexpectedValue o value =>
    some s!"unexpected value '{value}' for '{o.usage}' found; no more were expected"
  | missingValue o => some s!"a value is required for '{o.usage}' but none was supplied"
  | repeated o => some s!"the argument '{o.usage}' cannot be used multiple times"
  | missingOption _ => some "the following required arguments were not provided:"

/-- The options that were given, latest first, with their values. -/
abbrev Given := List (Opt × String)

def Given.add (g : Given) (o : Opt) (value : String) : Except UsageError Given :=
  if g.any (·.1 == o) then .error (.repeated o) else .ok ((o, value) :: g)

def Given.value? (g : Given) (o : Opt) : Option String := (g.find? (·.1 == o)).map (·.2)

/-- Whether one of the options that print something and end is given. -/
def Given.asksForText (g : Given) : Bool := g.any fun e => e.1 == .help || e.1 == .version

/-- Reads letters that follow one dash. The option that is returned still lacks its value. -/
def readLetters (known : List Opt) (g : Given) : List Char → Except UsageError (Given × Option Opt)
  | [] => .ok (g, none)
  | c :: cs =>
    match known.find? (·.short? == some c) with
    | none => .error (.unexpectedArgument (String.ofList ['-', c]))
    | some o =>
      if o.takesValue then
        if cs.isEmpty then .ok (g, some o)
        else
          let value := if cs.head? == some '=' then cs.drop 1 else cs
          (g.add o (String.ofList value)).map (·, none)
      else
        match g.add o "" with
        | .error e => .error e
        | .ok g => readLetters known g cs

/-- Reads a word that begins with two dashes. The option that is returned still lacks its value. -/
def readLong (known : List Opt) (g : Given) (cs : List Char) :
    Except UsageError (Given × Option Opt) :=
  let name := String.ofList (cs.takeWhile (· != '='))
  let rest := cs.dropWhile (· != '=')
  match known.find? (·.long == name) with
  | none => .error (.unexpectedArgument ("--" ++ name))
  | some o =>
    match o.takesValue, rest with
    | true, [] => .ok (g, some o)
    | true, _ :: value => (g.add o (String.ofList value)).map (·, none)
    | false, [] => (g.add o "").map (·, none)
    | false, _ :: value => .error (.unexpectedValue o (String.ofList value))

def canBeValue (word : String) : Bool := !word.startsWith "-" || word == "-"

/-- Reads one word. The option that is returned still lacks its value. -/
def readWord (known : List Opt) (g : Given) (word : String) :
    Except UsageError (Given × Option Opt) :=
  match word.toList with
  | '-' :: '-' :: cs => readLong known g cs
  | '-' :: c :: cs => readLetters known g (c :: cs)
  | _ => .error (.unexpectedArgument word)

/-- Reads the words after a command. An option that prints something ends the reading, and two
dashes end the options. -/
def readOptions (known : List Opt) (g : Given) : List String → Except UsageError Given
  | [] => .ok g
  | "--" :: [] => .ok g
  | "--" :: extra :: _ => .error (.unexpectedArgument extra)
  | word :: words =>
    match readWord known g word with
    | .error e => .error e
    | .ok (g, none) => if g.asksForText then .ok g else readOptions known g words
    | .ok (g, some o) =>
      match words with
      | [] => .error (.missingValue o)
      | value :: words =>
        if canBeValue value then
          match g.add o value with
          | .error e => .error e
          | .ok g => readOptions known g words
        else .error (.missingValue o)

structure PlayOptions where
  /-- The world's directory or document. -/
  dir : String := "."
  /-- The save to resume from. -/
  load : Option String := none
  /-- The settings to play under. -/
  config : Option String := none
  deriving DecidableEq, Repr

/-- What the program is asked to do. -/
inductive Invocation
  | check (dir : String)
  | play (options : PlayOptions)
  | replay (script : String) (options : PlayOptions) (save : Option String)
  /-- Print how the program, or one of its commands, is used. -/
  | help (verb : Option Verb)
  | version (verb : Option Verb)
  deriving DecidableEq, Repr

/-- What a command is asked to do by its options. -/
def Verb.invocation (v : Verb) (g : Given) : Except UsageError Invocation :=
  let options : PlayOptions :=
    { dir := (g.value? .dir).getD ".", load := g.value? .load, config := g.value? .config }
  if (g.value? .help).isSome then .ok (.help (some v))
  else if (g.value? .version).isSome then .ok (.version (some v))
  else
    match v with
    | check => .ok (.check options.dir)
    | play => .ok (.play options)
    | replay =>
      match g.value? .script with
      | some script => .ok (.replay script options (g.value? .save))
      | none => .error (.missingOption .script)

/-- The help that words after `help` ask for. -/
def helpFor : List String → Except UsageError Invocation
  | [] => .ok (.help none)
  | name :: _ =>
    match Verb.all.find? (·.name == name) with
    | some v => .ok (.help (some v))
    | none => .error (.unknownCommand name)

/-- Reads the words from the front: options that need no command, then the command. -/
def readFront (g : Given) : List String → Except UsageError Invocation
  | [] => .error .noCommand
  | word :: words =>
    if word.startsWith "-" && word != "-" then
      match readWord [.verbose, .help, .version] g word with
      | .error e => .error e
      | .ok (g, _) =>
        if (g.value? .help).isSome then .ok (.help none)
        else if (g.value? .version).isSome then .ok (.version none)
        else readFront g words
    else
      match Verb.all.find? (·.name == word) with
      | some v => (readOptions v.options [] words).bind v.invocation
      | none => if word == "help" then helpFor words else .error (.unknownCommand word)

def Invocation.parse (args : List String) : Except UsageError Invocation := readFront [] args

end Storyworld.Console
