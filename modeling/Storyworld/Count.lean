/-!
# Counts

Counters, integer flags and comparisons work on 64-bit signed integers. Adding saturates at the two
ends instead of wrapping. `toInt_addSat` states the sum on plain integers.
-/

namespace Storyworld

/-- A 64-bit signed integer. -/
abbrev Count := Int64

namespace Count

def least : Count := Int64.minValue
def greatest : Count := Int64.maxValue

theorem toInt_least : least.toInt = -0x8000000000000000 := rfl

theorem toInt_greatest : greatest.toInt = 0x7fffffffffffffff := rfl

def Fits (n : Int) : Prop := -0x8000000000000000 ≤ n ∧ n < 0x8000000000000000

instance (n : Int) : Decidable (Fits n) := inferInstanceAs (Decidable (_ ∧ _))

def ofInt? (n : Int) : Option Count := if Fits n then some (Int64.ofInt n) else none

theorem fits_toInt (c : Count) : Fits c.toInt := ⟨Int64.le_toInt c, Int64.toInt_lt c⟩

theorem toInt_ofInt {n : Int} (h : Fits n) : (Int64.ofInt n).toInt = n :=
  Int64.toInt_ofInt_of_le h.1 h.2

@[simp] theorem ofInt?_toInt (c : Count) : ofInt? c.toInt = some c := by
  simp [ofInt?, fits_toInt]

/-- The nearest count to an integer. -/
def clamp (n : Int) : Count :=
  if n < -0x8000000000000000 then least
  else if 0x8000000000000000 ≤ n then greatest
  else Int64.ofInt n

/-- The sum, held at the end of the range that it passes. -/
def addSat (a b : Count) : Count := clamp (a.toInt + b.toInt)

theorem toInt_clamp (n : Int) : (clamp n).toInt = max least.toInt (min n greatest.toInt) := by
  have hl := toInt_least
  have hg := toInt_greatest
  unfold clamp
  split
  · omega
  · split
    · omega
    · rw [toInt_ofInt ⟨by omega, by omega⟩]
      omega

theorem toInt_addSat (a b : Count) :
    (addSat a b).toInt = max least.toInt (min (a.toInt + b.toInt) greatest.toInt) :=
  toInt_clamp _

def text (c : Count) : String := toString c.toInt

/-- The decimal text of a count with its sign written also when it is not negative. -/
def signedText (c : Count) : String := (if 0 ≤ c.toInt then "+" else "") ++ c.text

end Count
end Storyworld
