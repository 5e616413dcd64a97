import Storyworld.Codec.State
import Storyworld.Json.Reader
import Storyworld.Json.Writer
import Storyworld.Save

/-!
# Codec of saves

A save is a JSON text, written over several lines so that it can be read and compared by eye.
-/

namespace Storyworld.Save

open Datum

def ofDatum? (d : Datum) : Option Save := do
  let [format, sessionId, catalogVersion, savedAt, state] ← d.fields? .json .lenient
    ["format", "session_id", "catalog_version", "saved_at", "state"] | none
  return {
    format := ← need (fun d => (d.natBelow? UInt32.size).map UInt32.ofNat) format
    sessionId := ← need (fun d => d.text?.bind SessionId.parse?) sessionId
    catalogVersion := ← need text? catalogVersion
    savedAt := ← need (fun d => d.text?.bind Instant.parse?) savedAt
    state := ← need State.ofDatum? state }

def toDatum (s : Save) : Datum :=
  .record [("format", int s.format.toNat), ("session_id", .text s.sessionId.text),
    ("catalog_version", .text s.catalogVersion), ("saved_at", .text s.savedAt.text),
    ("state", s.state.toDatum)]

def parse? (text : String) : Option Save := (Json.parse? text).bind ofDatum?

def text (s : Save) : String := Json.pretty s.toDatum

end Storyworld.Save
