import Storyworld.Codec.Save
import Storyworld.Codec.Settings
import Storyworld.Console.MetaCommand
import Storyworld.Console.Usage
import Storyworld.Loading
import Storyworld.Session
import Storyworld.Text.Grid

/-!
# The program

Checking, playing and replaying over any terminal: a monad in which files can be read and written
and text can be printed. A command runs until it is done or meets a failure, which ends the program.
-/

namespace Storyworld.Console

open Text

/-- What the program needs from its surroundings. -/
structure Terminal (m : Type → Type) where
  files : Files m
  print : String → m Unit
  /-- An identifier that no session has had. -/
  newSession : m SessionId
  now : m Instant

/-- Why a command gives up. -/
inductive Failure
  /-- The world has so many problems, or cannot be read at all. -/
  | worldUnloadable (problems : Nat)
  | unreadable (path : String) (reason : FileError)
  | unwritable (path : String) (reason : FileError)
  | badSettings (path : String)
  | badSave (path : String)
  | unresumable (path : String) (reason : RestoreError)
  | inconsistent (reason : Inconsistency)
  deriving DecidableEq, Repr

def Failure.message : Failure → String
  | worldUnloadable 0 => "world failed to load"
  | worldUnloadable 1 => "world failed to load with 1 integrity problem"
  | worldUnloadable n => s!"world failed to load with {n} integrity problems"
  | unreadable path reason => s!"cannot read {path}: {reason.message}"
  | unwritable path reason => s!"cannot write {path}: {reason.message}"
  | badSettings path => s!"{path}: invalid engine config"
  | badSave path => s!"{path}: invalid save data"
  | unresumable path reason => s!"cannot resume {path}: {reason.message}"
  | inconsistent reason => reason.message

/-- The summary of a session as grids. -/
def statusText (status : SessionStatus) : String :=
  let carried :=
    if status.inventory.isEmpty then "-" else String.intercalate ", " status.inventory
  let rows := [["Turn", toString status.turn.toNat], ["Location", status.location],
    ["Act", status.act], ["Carrying", carried]] ++
    status.victory.toList.map fun v => ["Victory", v]
  let goals := status.spokes.map fun p => [p.name, if p.completed then "yes" else "no"]
  let grids := Grid.render none rows ::
    (if goals.isEmpty then [] else [Grid.render (some ["Goal", "Done"]) goals])
  String.intercalate "\n" grids ++ "\n\n"

def outcomeText (o : TurnOutcome) : String :=
  let text := match o.status with
    | .rejected r => o.narration.text ++ " [" ++ r.refusal.code ++ "]"
    | _ => o.narration.text
  let won := match o.victory with
    | some v => "Victory: " ++ v ++ "\n"
    | none => ""
  text ++ "\n" ++ won ++ "\n"

/-- The lines of a text; a line break at the end begins no line. -/
def linesOf (text : String) : List String :=
  let parts := text.splitOn "\n"
  if parts.getLast? == some "" then parts.dropLast else parts

/-- The lines of a script that are run: not blank ones, and not comments. -/
def scriptLines (text : String) : List String :=
  ((linesOf text).map trim).filter fun l => !l.isEmpty && !l.startsWith "#"

namespace Terminal

variable {m : Type → Type} [Monad m] (t : Terminal m)

/-- Something done at the terminal that may end in a failure. -/
abbrev Act (m : Type → Type) (α : Type) := ExceptT Failure m α

def say (text : String) : Act m Unit := ExceptT.lift (t.print text)

/-- Loads the world at a path. -/
def loadWorld (dir : String) : Act m Catalog := do
  match ← ExceptT.lift (t.files.load dir) with
  | .ok c => return c
  | .error e => throw (.worldUnloadable e.problemCount)

def readFile (path : String) : Act m String := do
  match ← ExceptT.lift (t.files.read path) with
  | .ok text => return text
  | .error e => throw (.unreadable path e)

/-- Reads the settings at a path, or takes the defaults. -/
def loadSettings : Option String → Act m Settings
  | none => return {}
  | some path => do
    match Settings.parse? (← t.readFile path) with
    | some settings => return settings
    | none => throw (.badSettings path)

/-- Starts a session, or resumes one. -/
def openSession (o : PlayOptions) : Act m Session := do
  let c ← t.loadWorld o.dir
  let settings ← t.loadSettings o.config
  match o.load with
  | none => return .start (← ExceptT.lift t.newSession) c settings
  | some path =>
    match Save.parse? (← t.readFile path) with
    | none => throw (.badSave path)
    | some save =>
      match Session.resume c settings save with
      | .ok s => return s
      | .error e => throw (.unresumable path e)

def writeSave (s : Session) (path : String) : Act m Unit := do
  let now ← ExceptT.lift t.now
  match ← ExceptT.lift (t.files.write path (s.save now).text) with
  | .ok () => return ()
  | .error e => throw (.unwritable path e)

/-- Carries out a meta command. The answer is whether to go on. -/
def obey (s : Session) : MetaCommand → Act m Bool
  | .inventory => do
    t.say (s.inventoryListing ++ "\n\n")
    return true
  | .status => do
    t.say (statusText s.status)
    return true
  | .save none => do
    t.say "  usage: save <path>\n\n"
    return true
  | .save (some path) => do
    t.writeSave s path
    t.say s!"  Saved to {path}\n\n"
    return true
  | .help => do
    t.say (MetaCommand.helpText ++ "\n\n")
    return true
  | .quit => return false

def playLine (s : Session) (line : String) : Act m (Session × TurnOutcome) := do
  let played := s.play {} line
  match played.outcome with
  | .error e => throw (.inconsistent e)
  | .ok o =>
    t.say (outcomeText o)
    return (s.after played, o)

def check (dir : String) : Act m Unit := do
  let c ← t.loadWorld dir
  t.say s!"  World '{c.info.title}' (version {c.info.version})\n"
  let rows := c.counts.map fun e => [e.1.name, toString e.2]
  t.say (Grid.render (some ["Kind", "Count"]) rows ++ "\n\n")
  t.say s!"  All checks passed, {c.entityCount} entities\n"

/-- Runs the lines of a script. The answer is the session they lead to and how many of the turns
were not committed. -/
def runScript (s : Session) (refused : Nat) : List String → Act m (Session × Nat)
  | [] => return (s, refused)
  | line :: lines => do
    t.say s!"> {line}\n"
    match MetaCommand.parse? line with
    | some order =>
      if ← t.obey s order then runScript s refused lines else return (s, refused)
    | none =>
      let (s, o) ← t.playLine s line
      runScript s (if o.isCommitted then refused else refused + 1) lines

def replay (script : String) (o : PlayOptions) (save : Option String) : Act m Unit := do
  let lines := scriptLines (← t.readFile script)
  let s ← t.openSession o
  let (s, refused) ← t.runScript s 0 lines
  t.say s!"  {s.state.turn.toNat} turns, {refused} not committed\n"
  match save with
  | none => return ()
  | some path =>
    t.writeSave s path
    t.say s!"  Saved to {path}\n"

/-- Opens a session to be played line by line and prints its first scene. -/
def welcome (o : PlayOptions) : Act m Session := do
  let s ← t.openSession o
  t.say s!"  Playing {s.catalog.info.title}\n"
  t.say "  Type `help` for commands.\n\n"
  t.say (s.describeHere ++ "\n\n")
  return s

def prompt : Act m Unit := t.say "> "

/-- Answers a line that was typed; nothing is left to play once the player quits or the story is
over. -/
def answer (s : Session) (line : String) : Act m (Option Session) := do
  let line := trim line
  if line.isEmpty then return some s
  else
    match MetaCommand.parse? line with
    | some order => return if ← t.obey s order then some s else none
    | none =>
      let (s, o) ← t.playLine s line
      if o.victory.isSome then
        t.say "  The story is complete.\n"
        return none
      else return some s

/-- Plays lines as if they were typed one after the other. -/
def playLines (s : Session) : List String → Act m Unit
  | [] => t.prompt
  | line :: lines => do
    t.prompt
    match ← t.answer s line with
    | some s => playLines s lines
    | none => return ()

end Terminal

structure Ending where
  code : UInt32
  /-- What is said to the error stream. -/
  error : Option String := none
  deriving DecidableEq, Repr

def Ending.of : Except Failure Unit → Ending
  | .ok () => { code := 0 }
  | .error e => { code := 1, error := some ("error: " ++ e.message) }

/-- The ending when the command line cannot be understood. -/
def Ending.ofUsage (e : UsageError) : Ending :=
  let details := match e with
    | .missingOption o => "\n  " ++ o.usage
    | _ => ""
  { code := 2
    error := some <|
      match e.message? with
      | some message => "error: " ++ message ++ details
      | none => programHelp }

/-- Runs the program on a command line; `play` plays a session that was opened. -/
def run {m : Type → Type} [Monad m] (t : Terminal m)
    (play : Session → ExceptT Failure m Unit) (args : List String) : m Ending :=
  match Invocation.parse args with
  | .error e => return .ofUsage e
  | .ok (.check dir) => return .of (← (t.check dir).run)
  | .ok (.play o) => return .of (← (t.welcome o >>= play).run)
  | .ok (.replay script o save) => return .of (← (t.replay script o save).run)
  | .ok (.help v) => do
    t.print (helpText v ++ "\n")
    return { code := 0 }
  | .ok (.version v) => do
    t.print (versionText v ++ "\n")
    return { code := 0 }

/-- What a run leaves behind: the files, and what was printed. -/
structure Transcript where
  files : FileTree
  printed : String := ""
  deriving Inhabited

/-- A terminal in memory, where no time passes. -/
def Transcript.terminal : Terminal (StateM Transcript) where
  files := FileTree.access.lift fun act => modifyGet fun t =>
    let (a, files) := act.run t.files
    (a, { t with files })
  print text := modify fun t => { t with printed := t.printed ++ text }
  newSession := return .zero
  now := return .epoch

/-- Runs the program on files in memory, with lines that were typed beforehand. -/
def rehearse (files : FileTree) (args lines : List String) : Ending × Transcript :=
  (run Transcript.terminal (Transcript.terminal.playLines · lines) args).run { files }

end Storyworld.Console
