import Storyworld.Codec.Document
import Storyworld.Files.Tree
import Storyworld.Integrity
import Storyworld.Json.Reader
import Storyworld.Toml.Reader

/-!
# Loading

A world is loaded from one document or from all documents of a directory, merged in the order of
their names. The ending of a file's name says in which format it is written.
-/

namespace Storyworld

/-- A document before it is read. -/
structure SourceText where
  name : String
  format : Datum.Format
  text : String
  deriving Repr

/-- Why a world cannot be loaded. -/
inductive LoadError
  | unreadable (path : String) (reason : FileError)
  | noDocuments (path : String)
  /-- The document is not well formed, or does not say what a world is made of. -/
  | malformed (name : String)
  | unsound (problems : List Problem)
  deriving DecidableEq, Repr

/-- The number of problems that were found with the world as a whole. -/
def LoadError.problemCount : LoadError → Nat
  | unsound problems => problems.length
  | _ => 0

def Datum.Format.ofPath? (path : String) : Option Datum.Format :=
  match Path.extension? path with
  | some "toml" => some .toml
  | some "json" => some .json
  | _ => none

def WorldDocument.parse? (format : Datum.Format) (text : String) : Option WorldDocument :=
  let d := match format with
    | .json => Json.parse? text
    | .toml => Toml.parse? text
  d.bind (ofDatum? format)

def SourceText.parse (s : SourceText) : Except LoadError WorldDocument :=
  match WorldDocument.parse? s.format s.text with
  | some doc => .ok doc
  | none => .error (.malformed s.name)

namespace Catalog

/-- The catalog of documents that were read, merged in order. -/
def ofParsed (docs : List WorldDocument) : Except LoadError Catalog :=
  (ofDocuments docs).mapError .unsound

/-- The catalog of documents. The first that cannot be read decides. -/
def ofTexts (texts : List SourceText) : Except LoadError Catalog :=
  match texts.mapM SourceText.parse with
  | .error e => .error e
  | .ok docs => ofParsed docs

/-- The catalog of a document without a name. -/
def ofText (format : Datum.Format) (text : String) : Except LoadError Catalog :=
  ofTexts [{ name := "<input>", format, text }]

end Catalog

namespace Files

variable {m : Type → Type} [Monad m] (f : Files m)

/-- The names of the documents of a directory, sorted. -/
def documents (dir : String) : m (Except LoadError (List String)) := do
  match ← f.entries dir with
  | .error e => return .error (.unreadable dir e)
  | .ok names =>
    let known := names.filter fun n => (Datum.Format.ofPath? n).isSome
    let files ← known.filterM fun n => f.isFile (Path.entry dir n)
    return .ok (files.mergeSort fun a b => decide (a ≤ b))

def document (path : String) : m (Except LoadError SourceText) := do
  match Datum.Format.ofPath? path with
  | none => return .error (.noDocuments path)
  | some format =>
    match ← f.read path with
    | .error e => return .error (.unreadable path e)
    | .ok text => return .ok { name := (Path.fileName? path).getD path, format, text }

def parsed : List String → m (Except LoadError (List WorldDocument))
  | [] => return .ok []
  | path :: paths => do
    match (← f.document path).bind SourceText.parse with
    | .error e => return .error e
    | .ok doc =>
      match ← parsed paths with
      | .error e => return .error e
      | .ok docs => return .ok (doc :: docs)

/-- Loads the world of a directory, or of a single document. -/
def load (path : String) : m (Except LoadError Catalog) := do
  if ← f.isDirectory path then
    match ← f.documents path with
    | .error e => return .error e
    | .ok [] => return .error (.noDocuments path)
    | .ok names => return (← f.parsed (names.map (Path.entry path))).bind Catalog.ofParsed
  else
    return (← f.parsed [path]).bind Catalog.ofParsed

end Files
end Storyworld
