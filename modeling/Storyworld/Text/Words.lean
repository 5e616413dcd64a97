/-!
# Words

A text is a row of words between blanks, where a blank is a character with the Unicode property
White_Space. `nonempty_of_mem_words` says that no word is empty.
-/

namespace Storyworld.Text

def isBlank (c : Char) : Bool :=
  let n := c.toNat
  (9 ≤ n && n ≤ 13) || n == 0x20 || n == 0x85 || n == 0xA0 || n == 0x1680 ||
  (0x2000 ≤ n && n ≤ 0x200A) || n == 0x2028 || n == 0x2029 || n == 0x202F || n == 0x205F ||
  n == 0x3000

/-- The words of a text; `word` holds the letters of the current one, last letter first. -/
def wordsFrom (word : List Char) : List Char → List (List Char)
  | [] => if word.isEmpty then [] else [word.reverse]
  | c :: cs =>
    if isBlank c then
      if word.isEmpty then wordsFrom [] cs else word.reverse :: wordsFrom [] cs
    else wordsFrom (c :: word) cs

def words (s : String) : List String := (wordsFrom [] s.toList).map String.ofList

/-- Words joined by single spaces. -/
def unwords (ws : List String) : String := String.intercalate " " ws

def trim (s : String) : String :=
  String.ofList ((s.toList.dropWhile isBlank).reverse.dropWhile isBlank).reverse

theorem ne_nil_of_mem_wordsFrom {word cs w : List Char} (h : w ∈ wordsFrom word cs) : w ≠ [] := by
  induction cs generalizing word with
  | nil =>
    unfold wordsFrom at h
    split at h
    · simp at h
    · rename_i hw
      obtain rfl := List.mem_singleton.1 h
      simpa using hw
  | cons c cs ih =>
    unfold wordsFrom at h
    split at h
    · split at h
      · exact ih h
      · rename_i hw
        rcases List.mem_cons.1 h with rfl | h
        · simpa using hw
        · exact ih h
    · exact ih h

theorem nonempty_of_mem_words {s w : String} (h : w ∈ words s) : w ≠ "" := by
  obtain ⟨l, hl, rfl⟩ := List.mem_map.1 h
  intro he
  apply ne_nil_of_mem_wordsFrom hl
  have := congrArg String.toList he
  simpa using this

end Storyworld.Text
