/-!
# Session identifiers

A session is named by 128 bits, written as 32 hexadecimal digits in five groups. Reading also takes
the digits without hyphens, the groups in braces, and the groups after `urn:uuid:`.
-/

namespace Storyworld

structure SessionId where
  bits : BitVec 128
  deriving DecidableEq, Repr, Inhabited

namespace SessionId

def zero : SessionId := ⟨0⟩

/-- The identifier made of random bits; six of them are fixed and say that the others are random. -/
def ofRandom (bits : BitVec 128) : SessionId where
  bits :=
    let version : BitVec 128 := 0x4 <<< 76
    let variant : BitVec 128 := 0x2 <<< 62
    let free : BitVec 128 := ~~~((0xF <<< 76) ||| (0x3 <<< 62))
    (bits &&& free) ||| version ||| variant

def hexDigit (n : Nat) : Char :=
  if n < 10 then Char.ofNat ('0'.toNat + n) else Char.ofNat ('a'.toNat + (n - 10))

def hexValue? (c : Char) : Option Nat :=
  if '0' ≤ c && c ≤ '9' then some (c.toNat - '0'.toNat)
  else if 'a' ≤ c && c ≤ 'f' then some (c.toNat - 'a'.toNat + 10)
  else if 'A' ≤ c && c ≤ 'F' then some (c.toNat - 'A'.toNat + 10)
  else none

def digits (id : SessionId) : List Char :=
  (List.range 32).map fun i => hexDigit (id.bits.toNat / Nat.pow 16 (31 - i) % 16)

/-- The written form: the digits in groups of 8, 4, 4, 4 and 12. -/
def text (id : SessionId) : String :=
  let ds := id.digits
  let group (start size : Nat) : String := String.ofList ((ds.drop start).take size)
  group 0 8 ++ "-" ++ group 8 4 ++ "-" ++ group 12 4 ++ "-" ++ group 16 4 ++ "-" ++ group 20 12

def ofDigits? (cs : List Char) : Option SessionId :=
  if cs.length = 32 then do
    let values ← cs.mapM hexValue?
    return ⟨BitVec.ofNat 128 (values.foldl (fun n d => n * 16 + d) 0)⟩
  else none

def ofGroups? (cs : List Char) : Option SessionId :=
  if cs.length = 36 && [8, 13, 18, 23].all fun i => cs[i]? == some '-' then
    ofDigits? (cs.filter (· != '-'))
  else none

def parse? (text : String) : Option SessionId :=
  let cs := text.toList
  if cs.length = 32 then ofDigits? cs
  else if cs.length = 36 then ofGroups? cs
  else if cs.length = 38 then
    if cs.head? == some '\x7b' && cs.getLast? == some '\x7d' then ofGroups? (cs.drop 1).dropLast
    else none
  else if cs.length = 45 && cs.take 9 == "urn:uuid:".toList then ofGroups? (cs.drop 9)
  else none

end SessionId
end Storyworld
