import Storyworld.Count

/-!
# Flag values

A session flag holds a boolean, an integer or a text. Conditions ask whether it is truthy.
-/

namespace Storyworld

inductive FlagValue
  | bool (b : Bool)
  | integer (n : Count)
  | text (s : String)
  deriving DecidableEq, Repr

namespace FlagValue

instance : Inhabited FlagValue := ⟨bool true⟩

/-- All values count as true but `false`, zero and the empty text. -/
def isTruthy : FlagValue → Bool
  | bool b => b
  | integer n => n != 0
  | text s => !s.isEmpty

def display : FlagValue → String
  | bool b => if b then "true" else "false"
  | integer n => n.text
  | text s => s

end FlagValue
end Storyworld
