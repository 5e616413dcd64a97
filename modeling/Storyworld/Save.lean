import Storyworld.Migration
import Storyworld.SessionId
import Storyworld.Instant

/-!
# Saves

A save is the state of a session under a header that names the version of the catalog it was played
on. Restoring on the same version takes the state as it is, if it refers to nothing undeclared; on
another version the catalog's migration rule carries it over first, and the acts reached must lead
to the current one.
-/

namespace Storyworld

/-- A session written down. -/
structure Save where
  format : UInt32
  sessionId : SessionId
  catalogVersion : String
  savedAt : Instant
  state : State
  deriving Inhabited

/-- What keeps a state of another version from being carried over. -/
inductive Mismatch
  | noRule
  | dangling (keys : List String)
  /-- The acts reached do not lead to the current act. -/
  | history (act : EntityId)
  deriving DecidableEq, Repr

def Mismatch.message : Mismatch → String
  | noRule => "no migration rule for this version"
  | dangling keys => "unknown references: " ++ String.intercalate ", " keys
  | history act => "act history does not lead to `" ++ act ++ "`"

inductive RestoreError
  | unsupportedFormat (format : UInt32)
  /-- The save refers to what its own catalog does not declare. -/
  | corrupt (keys : List String)
  | version (saved current : String) (mismatch : Mismatch)
  deriving DecidableEq, Repr

def RestoreError.message : RestoreError → String
  | unsupportedFormat format => "unsupported save format " ++ toString format.toNat
  | corrupt keys => "corrupt save: unknown references: " ++ String.intercalate ", " keys
  | version saved current mismatch =>
    "save targets catalog version " ++ saved ++ " but the world is version " ++ current ++ ": " ++
      mismatch.message

namespace Save

def currentFormat : UInt32 := 1

def capture (id : SessionId) (now : Instant) (c : Catalog) (s : State) : Save :=
  ⟨currentFormat, id, c.version, now, s⟩

def migrate (c : Catalog) (r : MigrationRule) (s : State) : Except Mismatch State :=
  let s := r.renameState s
  let s := if r.discardMissing then s.discardMissing c else s
  let s :=
    match r.relocate with
    | some l => if c.locations.contains s.location then s else s.setLocation l
    | none => s
  match s.dangling c with
  | [] =>
    if (c.actsThrough s.act).map (·.id) = s.reachedActs then .ok s else .error (.history s.act)
  | keys => .error (.dangling keys)

/-- The state of a save on a catalog. -/
def restore (save : Save) (c : Catalog) : Except RestoreError State :=
  if save.format ≠ currentFormat then .error (.unsupportedFormat save.format)
  else if save.catalogVersion = c.version then
    match save.state.dangling c with
    | [] => .ok save.state
    | keys => .error (.corrupt keys)
  else
    match c.migrationFrom? save.catalogVersion with
    | none => .error (.version save.catalogVersion c.version .noRule)
    | some r => (migrate c r save.state).mapError (.version save.catalogVersion c.version)

end Save
end Storyworld
