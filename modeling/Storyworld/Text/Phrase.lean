import Storyworld.Text.Lowercase
import Storyworld.Text.Words

/-!
# Phrases

What the player types and what authors write is compared as phrases: in lowercase, with single
spaces, and without an article in front of further words.
-/

namespace Storyworld.Text

def articles : List String := ["the", "a", "an", "some"]

/-- Drops an article that is followed by a word. -/
def dropArticle : List String → List String
  | w :: v :: ws => if articles.contains w then v :: ws else w :: v :: ws
  | ws => ws

/-- The words of a phrase as they are compared. -/
def phraseWords (s : String) : List String := dropArticle (words (lowercase s))

def phrase (s : String) : String := unwords (phraseWords s)

end Storyworld.Text
