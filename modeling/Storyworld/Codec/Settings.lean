import Storyworld.Codec.Basic
import Storyworld.Settings
import Storyworld.Json.Reader
import Storyworld.Toml.Reader

/-!
# Codec of the settings

A setting that is not given has its default. Unknown settings are refused. Settings are written by
hand, so they are read from TOML text too.
-/

namespace Storyworld

open Datum

namespace Narration.Style

def ofDatum? (fmt : Format) (d : Datum) : Option Style := do
  let [tone, perspective, verbosity, playerName] ←
    d.fields? fmt .strict ["tone", "perspective", "verbosity", "player_name"] | none
  return {
    tone := ← orElse default (choice? fmt Tone.all Tone.name) tone
    perspective := ← orElse default (choice? fmt Perspective.all Perspective.name) perspective
    verbosity := ← orElse default (choice? fmt Verbosity.all Verbosity.name) verbosity
    playerName := ← maybe text? playerName }

def toDatum (s : Style) : Datum :=
  .record [("tone", .text s.tone.name), ("perspective", .text s.perspective.name),
    ("verbosity", .text s.verbosity.name), ("player_name", ofOption .text s.playerName)]

/-- Reads the style of the narrator from TOML text. -/
def parse? (text : String) : Option Style := (Toml.parse? text).bind (ofDatum? .toml)

end Narration.Style

namespace Settings

def ofDatum? (fmt : Format) (d : Datum) : Option Settings := do
  let [ambiguity, fuzzy, timeout, narrator] ← d.fields? fmt .strict
    ["ambiguity_threshold", "fuzzy_threshold", "narration_timeout_ms", "narrator"] | none
  let standard : Settings := {}
  return {
    ambiguityThreshold := ← orElse standard.ambiguityThreshold (float? fmt) ambiguity
    fuzzyThreshold := ← orElse standard.fuzzyThreshold (float? fmt) fuzzy
    narrationTimeoutMs := ← orElse standard.narrationTimeoutMs word? timeout
    narrator := ← orElse standard.narrator (Narration.Style.ofDatum? fmt) narrator }

/-- Reads the settings from TOML text. -/
def parse? (text : String) : Option Settings := (Toml.parse? text).bind (ofDatum? .toml)

end Settings
end Storyworld
