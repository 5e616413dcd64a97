import Storyworld.Text.CaseData

/-!
# Lowercase

Full lowercase of a text. Every character is mapped by itself, but for the capital sigma, which
becomes a final sigma at the end of a word: after a cased letter and not before one, case-ignorable
characters not counted.
-/

namespace Storyworld.Text

def inRanges (ranges : List (Nat × Nat)) (n : Nat) : Bool := ranges.any fun r => r.1 ≤ n && n ≤ r.2

/-- Whether the character has case. -/
def isCased (c : Char) : Bool := inRanges casedRanges c.toNat

/-- Whether the character is skipped when case is looked for. -/
def isCaseIgnorable (c : Char) : Bool := inRanges caseIgnorableRanges c.toNat

/-- The lowercase of an ASCII capital; other characters stay. -/
def lowerAscii (c : Char) : Char := c.toLower

/-- The lowercase of a character on its own. -/
def lowerChar (c : Char) : List Char :=
  if c.toNat < 0x80 then [lowerAscii c]
  else if c.toNat = 0x130 then ['i', '\u0307']
  else
    match lowercaseRanges.find? fun r =>
        r.first ≤ c.toNat && c.toNat ≤ r.last && (c.toNat - r.first) % r.step == 0 with
    | some r => [Char.ofNat (c.toNat + r.shift).toNat]
    | none => [c]

/-- Whether the first character that counts has case. -/
def startsCased (cs : List Char) : Bool := ((cs.dropWhile isCaseIgnorable).head?).any isCased

/-- Lowercase of the rest of a text; `before` holds what came before, last character first. -/
def lowerFrom (before : List Char) : List Char → List Char
  | [] => []
  | c :: rest =>
    (if c = '\u03a3' then
      [if startsCased before && !startsCased rest then '\u03c2' else '\u03c3']
    else lowerChar c) ++ lowerFrom (c :: before) rest

def lowercase (s : String) : String := String.ofList (lowerFrom [] s.toList)

/-- Whether two texts are equal up to the case of ASCII letters. -/
def eqIgnoreAsciiCase (s t : String) : Bool :=
  s.toList.map lowerAscii == t.toList.map lowerAscii

end Storyworld.Text
