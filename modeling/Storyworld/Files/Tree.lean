import Storyworld.Files.Path

/-!
# File trees

Files as the rest of the library sees them: `Files` says what can be asked of them in a monad, and
`FileTree` is a tree of texts in memory that answers as a directory on a disk would.
-/

namespace Storyworld

inductive FileError
  | notFound
  | isDirectory
  | notDirectory
  | notText
  /-- Any other reason, in words. -/
  | other (reason : String)
  deriving DecidableEq, Repr

def FileError.message : FileError → String
  | notFound => "No such file or directory (os error 2)"
  | isDirectory => "Is a directory (os error 21)"
  | notDirectory => "Not a directory (os error 20)"
  | notText => "stream did not contain valid UTF-8"
  | other reason => reason

/-- What can be asked of files. -/
structure Files (m : Type → Type) where
  isFile : String → m Bool
  isDirectory : String → m Bool
  /-- The names of the entries of a directory, in any order. -/
  entries : String → m (Except FileError (List String))
  read : String → m (Except FileError String)
  write : String → String → m (Except FileError Unit)

def Files.lift {m n : Type → Type} (f : Files m) (up : {α : Type} → m α → n α) : Files n where
  isFile path := up (f.isFile path)
  isDirectory path := up (f.isDirectory path)
  entries path := up (f.entries path)
  read path := up (f.read path)
  write path text := up (f.write path text)

/-- Texts in a tree of directories, by the names that lead to them. A directory is there if it is
listed or anything lies in it. -/
structure FileTree where
  files : List (List String × String) := []
  directories : List (List String) := []
  deriving Inhabited

namespace FileTree

/-- The tree of files given by path; those without text are directories. -/
def ofList (entries : List (String × Option String)) : FileTree where
  files := entries.filterMap fun e => e.2.map fun text => (Path.parts e.1, text)
  directories := (entries.filter (·.2.isNone)).map fun e => Path.parts e.1

def text? (t : FileTree) (place : List String) : Option String :=
  (t.files.find? (·.1 == place)).map (·.2)

/-- Everything that a place must be a directory for. -/
def holds (t : FileTree) (place : List String) : Bool :=
  t.directories.any place.isPrefixOf ||
    t.files.any fun f => f.1 != place && place.isPrefixOf f.1

def isDirectoryAt (t : FileTree) (place : List String) : Bool := place.isEmpty || t.holds place

/-- Follows the parts of a path from a directory. All but the last must be directories. -/
def follow (t : FileTree) (place : List String) : List String → Except FileError (List String)
  | [] => .ok place
  | part :: rest =>
    let next := if part == ".." then place.dropLast else place ++ [part]
    if rest.isEmpty || t.isDirectoryAt next then t.follow next rest
    else if (t.text? next).isSome then .error .notDirectory
    else .error .notFound

def place (t : FileTree) (path : String) : Except FileError (List String) :=
  if path == "" || path.startsWith "/" then .error .notFound
  else
    match t.follow [] (Path.parts path) with
    | .error e => .error e
    | .ok p =>
      if Path.endsOpen path && (t.text? p).isSome then .error .notDirectory else .ok p

def isFile (t : FileTree) (path : String) : Bool :=
  match t.place path with
  | .ok p => (t.text? p).isSome
  | .error _ => false

def isDirectory (t : FileTree) (path : String) : Bool :=
  match t.place path with
  | .ok p => t.isDirectoryAt p
  | .error _ => false

def entries (t : FileTree) (path : String) : Except FileError (List String) :=
  match t.place path with
  | .error e => .error e
  | .ok p =>
    if t.isDirectoryAt p then
      let places := t.directories ++ t.files.map (·.1)
      .ok ((places.filter p.isPrefixOf).filterMap (·[p.length]?)).eraseDups
    else if (t.text? p).isSome then .error .notDirectory
    else .error .notFound

def read (t : FileTree) (path : String) : Except FileError String :=
  match t.place path with
  | .error e => .error e
  | .ok p =>
    match t.text? p with
    | some text => .ok text
    | none => if t.isDirectoryAt p then .error .isDirectory else .error .notFound

def write (t : FileTree) (path text : String) : Except FileError FileTree :=
  match t.place path with
  | .error e => .error e
  | .ok p =>
    if t.isDirectoryAt p || Path.endsOpen path then .error .isDirectory
    else .ok { t with files := (p, text) :: t.files.filter (·.1 != p) }

/-- The files of a tree that can change. -/
def access : Files (StateM FileTree) where
  isFile path := return (← get).isFile path
  isDirectory path := return (← get).isDirectory path
  entries path := return (← get).entries path
  read path := return (← get).read path
  write path text := modifyGet fun t =>
    match t.write path text with
    | .error e => (.error e, t)
    | .ok t => (.ok (), t)

end FileTree
end Storyworld
