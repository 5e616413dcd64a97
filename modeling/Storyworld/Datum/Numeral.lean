/-!
# Numerals

A decimal numeral as it is written, and two ways to the double that it means: the nearest one, and
the quick way that scales its digits once and may miss the nearest double by a little when the
numeral is long.
-/

namespace Storyworld

/-- A written number that is not an integer in range. -/
inductive Numeral
  /-- Digits before and after the point, and a power of ten. -/
  | finite (negative : Bool) (whole fraction : List Char) (exponent : Int)
  | infinite (negative : Bool)
  | nan
  deriving DecidableEq, Repr

/-- The number that a row of decimal digits means. -/
def digitsValue (ds : List Char) : Nat := ds.foldl (fun n c => 10 * n + (c.toNat - '0'.toNat)) 0

/-- The double nearest to `digits` times a power of ten. -/
def scaleNearest (digits : Nat) (exponent : Int) : Float :=
  let magnitude := (Nat.toDigits 10 digits).length + exponent
  if digits = 0 || magnitude < -400 then 0.0
  else if 400 < magnitude then 1.0 / 0.0
  else if exponent < 0 then Float.ofScientific digits true exponent.natAbs
  else Float.ofScientific digits false exponent.natAbs

def signed (negative : Bool) (x : Float) : Float := if negative then -x else x

def wordLimit : Nat := UInt64.size - 1

/-- Takes digits as long as they fit into 64 bits; the rest is counted. -/
def takeDigits (n : Nat) : List Char → Nat × Nat
  | [] => (n, 0)
  | c :: cs =>
    let next := 10 * n + (c.toNat - '0'.toNat)
    if next ≤ wordLimit then takeDigits next cs else (n, cs.length + 1)

/-- Scales a double by a power of ten, 308 places at a time. None if it gets too great. -/
def scaleDouble (x : Float) (exponent : Int) : Nat → Option Float
  | 0 => none
  | n + 1 =>
    if exponent.natAbs ≤ 308 then
      let power := Float.ofScientific 1 false exponent.natAbs
      if exponent < 0 then some (x / power)
      else if (x * power).isInf then none else some (x * power)
    else if x == 0.0 then some x
    else if 0 ≤ exponent then none
    else scaleDouble (x / Float.ofScientific 1 false 308) (exponent + 308) n

namespace Numeral

def nearest : Numeral → Float
  | finite negative whole fraction exponent =>
    signed negative (scaleNearest (digitsValue (whole ++ fraction)) (exponent - fraction.length))
  | infinite negative => signed negative (1.0 / 0.0)
  | nan => 0.0 / 0.0

/-- The double that comes of the digits that fit into 64 bits, scaled once by a power of ten. None
if the numeral is out of range. -/
def scaled? : Numeral → Option Float
  | finite negative whole fraction exponent =>
    let (n, dropped) := takeDigits 0 whole
    let (n, cut) := takeDigits n fraction
    let places : Int := dropped - (fraction.length - cut : Nat)
    let exponent := exponent + places
    -- A double is zero long before its exponent has been scaled away.
    if exponent < -700 then some (signed negative 0.0)
    else (scaleDouble (Float.ofNat n) exponent 4).map (signed negative)
  | x => some x.nearest

end Numeral
end Storyworld
