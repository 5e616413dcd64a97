/-!
# Similarity

The Jaro–Winkler similarity of two texts, over characters: the share of characters that match within
a window, less those out of order, raised for a common beginning.
-/

namespace Storyworld.Text

/-- Marks the first unmarked place that holds the character and lies between two positions. -/
def markFirst (c : Char) (low high : Nat) (i : Nat) : List (Char × Bool) →
    Option (List (Char × Bool))
  | [] => none
  | (d, used) :: rest =>
    if high < i then none
    else if low ≤ i && d == c && !used then some ((d, true) :: rest)
    else (markFirst c low high (i + 1) rest).map ((d, used) :: ·)

/-- The characters of a text that find a match, and the marks on the other text. -/
def matchFrom (range : Nat) (i : Nat) : List Char → List (Char × Bool) →
    List Char × List (Char × Bool)
  | [], marks => ([], marks)
  | c :: cs, marks =>
    match markFirst c (i - range) (i + range) 0 marks with
    | none => matchFrom range (i + 1) cs marks
    | some marks =>
      let (matched, marks) := matchFrom range (i + 1) cs marks
      (c :: matched, marks)

/-- The Jaro similarity of two rows of characters. -/
def jaro (a b : List Char) : Float :=
  if a.isEmpty && b.isEmpty then 1.0
  else if a.isEmpty || b.isEmpty then 0.0
  else
    let range := max (max a.length b.length / 2) 1 - 1
    let (matchedA, marks) := matchFrom range 0 a (b.map fun c => (c, false))
    let matchedB := (marks.filter (·.2)).map (·.1)
    let m := matchedA.length
    let t := ((matchedA.zip matchedB).filter fun p => p.1 != p.2).length / 2
    if m = 0 then 0.0
    else
      (Float.ofNat m / Float.ofNat a.length + Float.ofNat m / Float.ofNat b.length +
        Float.ofNat (m - t) / Float.ofNat m) / 3.0

/-- The length of the common beginning of two rows, at most as many characters as given. -/
def commonStart : Nat → List Char → List Char → Nat
  | n + 1, c :: cs, d :: ds => if c = d then commonStart n cs ds + 1 else 0
  | _, _, _ => 0

/-- The Jaro–Winkler similarity of two texts, between zero and one. -/
def similarity (a b : String) : Float :=
  let sim := jaro a.toList b.toList
  if sim > 0.7 then
    sim + 0.1 * Float.ofNat (commonStart 4 a.toList b.toList) * (1.0 - sim)
  else sim

end Storyworld.Text
