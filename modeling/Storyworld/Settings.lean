import Storyworld.Narration.Style

/-!
# Settings

What can be set for a session: from which likeness on a name counts, how confident the intent
companion must be, how long the prose companion may take, and how the templates speak.
-/

namespace Storyworld

structure Settings where
  /-- Replies of the intent companion below this confidence are put back to the player. -/
  ambiguityThreshold : Float := 0.6
  /-- Names less similar than this are not meant. -/
  fuzzyThreshold : Float := 0.8
  narrationTimeoutMs : UInt64 := 5000
  narrator : Narration.Style := {}
  deriving Inhabited

namespace Settings

/-- The nearest number between zero and one. -/
def clampUnit (x : Float) : Float := if x < 0.0 then 0.0 else if x > 1.0 then 1.0 else x

def withAmbiguityThreshold (s : Settings) (x : Float) : Settings :=
  { s with ambiguityThreshold := clampUnit x }

/-- Sets the likeness from which on a name counts. -/
def withFuzzyThreshold (s : Settings) (x : Float) : Settings :=
  { s with fuzzyThreshold := clampUnit x }

/-- Sets how many seconds the prose companion may take, as far as their milliseconds fit. -/
def withTimeoutSeconds (s : Settings) (seconds : Nat) : Settings :=
  { s with narrationTimeoutMs := UInt64.ofNat (min (seconds * 1000) (UInt64.size - 1)) }

end Settings
end Storyworld
