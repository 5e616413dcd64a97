import Std.Time.DateTime.Timestamp
import Storyworld.Console.Program

/-!
# The program on a real terminal

Files, streams, time and chance of the machine it runs on. Nothing is decided here.
-/

namespace Storyworld.Console

/-- The failure that an error of the machine stands for. -/
def failureOf : IO.Error → FileError
  | .noFileOrDirectory .. => .notFound
  | e => .other (toString e)

def attempt {α : Type} (act : IO α) : IO (Except FileError α) := do
  match ← act.toBaseIO with
  | .ok a => return .ok a
  | .error e => return .error (failureOf e)

def machineFiles : Files IO where
  isFile path := do
    match ← attempt (do return (← (← IO.FS.realPath path).metadata).type == .file) with
    | .ok yes => return yes
    | .error _ => return false
  isDirectory path := do
    match ← attempt (do (← IO.FS.realPath path).isDir) with
    | .ok yes => return yes
    | .error _ => return false
  entries path := attempt do
    return ((← (← IO.FS.realPath path).readDir).map (·.fileName)).toList
  read path := do
    match ← attempt (IO.FS.readBinFile path) with
    | .error e => return .error e
    | .ok bytes =>
      match String.fromUTF8? bytes with
      | some text => return .ok text
      | none => return .error .notText
  write path text := attempt (IO.FS.writeFile path text)

def machine : Terminal IO where
  files := machineFiles
  print text := do
    let out ← IO.getStdout
    out.putStr text
    out.flush
  newSession := do
    let bytes ← IO.getRandomBytes 16
    let bits := bytes.toList.foldl (fun n b => n * 256 + b.toNat) 0
    return .ofRandom (BitVec.ofNat 128 bits)
  now := do
    let t ← Std.Time.Timestamp.now
    return .sinceEpoch t.val.second.toInt.toNat t.val.nano.toInt.toNat

/-- Plays a session line by line until the player quits, the story ends or the input does. -/
partial def playTyped (s : Session) : ExceptT Failure IO Unit := do
  machine.prompt
  let line ← (← IO.getStdin).getLine
  if line.isEmpty then return ()
  match ← machine.answer s line with
  | some s => playTyped s
  | none => return ()

end Storyworld.Console

def main (args : List String) : IO UInt32 := do
  let ending ← Storyworld.Console.run Storyworld.Console.machine Storyworld.Console.playTyped args
  match ending.error with
  | some text => IO.eprintln text
  | none => return ending.code
  return ending.code
