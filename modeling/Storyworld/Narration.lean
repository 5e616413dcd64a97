import Storyworld.Narration.Template

/-!
# Narration

The prose of a committed turn comes from the prose companion if there is one and it answers in time;
else the templates tell the same turn. The turn stands whatever becomes of its narration.
-/

namespace Storyworld

/-- What the prose companion answers: a text, or a failure, after a while. -/
structure ProseReply where
  text : Option String
  delayMs : Nat := 0
  deriving DecidableEq, Repr

/-- Writes the prose of a turn. -/
abbrev ProseCompanion := Narration.Request → ProseReply

/-- Where the prose came from. -/
inductive NarrationSource
  | companion
  /-- The templates; there is no companion. -/
  | template
  /-- The templates, because the companion failed or was late. -/
  | fallback
  deriving DecidableEq, Repr

def NarrationSource.name : NarrationSource → String
  | companion => "collaborator"
  | template => "template"
  | fallback => "fallback"

structure Prose where
  text : String
  source : NarrationSource := .template
  deriving DecidableEq, Repr

/-- Tells a committed turn. -/
def narrate (style : Narration.Style) (timeoutMs : Nat) (companion : Option ProseCompanion)
    (request : Narration.Request) : Prose :=
  match companion with
  | none => { text := style.render request }
  | some ask =>
    let reply := ask request
    match (if reply.delayMs ≤ timeoutMs then reply.text else none) with
    | some text => { text, source := .companion }
    | none => { text := style.render request, source := .fallback }

end Storyworld
