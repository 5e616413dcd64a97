import Storyworld.Datum

/-!
# Reading JSON

A text is cut into tokens, and the tokens are put together on a stack of the containers that are
open. No more than 127 containers may be open at once. Numbers without fraction and exponent are
integers as far as 64 bits hold them; minus zero is not.
-/

namespace Storyworld.Json

/-- The smallest pieces of a text that mean something. -/
inductive Token
  | openList | closeList | openRecord | closeRecord | comma | colon
  /-- A value by itself; texts can be names of fields too. -/
  | scalar (d : Datum)

def hexDigit? (c : Char) : Option Nat :=
  if '0' ≤ c ∧ c ≤ '9' then some (c.toNat - '0'.toNat)
  else if 'a' ≤ c ∧ c ≤ 'f' then some (c.toNat - 'a'.toNat + 10)
  else if 'A' ≤ c ∧ c ≤ 'F' then some (c.toNat - 'A'.toNat + 10)
  else none

def hexValue? (cs : List Char) : Option Nat :=
  cs.foldl (fun n c => n.bind fun n => (hexDigit? c).map (16 * n + ·)) (some 0)

def escape? : Char → Option Char
  | '"' => some '"'
  | '\\' => some '\\'
  | '/' => some '/'
  | 'b' => some '\x08'
  | 'f' => some '\x0c'
  | 'n' => some '\n'
  | 'r' => some '\r'
  | 't' => some '\t'
  | _ => none

/-- Reads a text after its opening quote; `done` holds what was read, last character first. A
character beyond the first 65536 is escaped as a pair of surrogates. -/
def readText (done : List Char) : List Char → Option (String × List Char)
  | [] => none
  | '"' :: cs => some (String.ofList done.reverse, cs)
  | '\\' :: 'u' :: a :: b :: c :: d :: cs =>
    match hexValue? [a, b, c, d] with
    | none => none
    | some high =>
      if high < 0xD800 || 0xDFFF < high then readText (Char.ofNat high :: done) cs
      else
        match cs with
        | '\\' :: 'u' :: e :: f :: g :: h :: cs =>
          match hexValue? [e, f, g, h] with
          | none => none
          | some low =>
            if high < 0xDC00 && 0xDC00 ≤ low && low ≤ 0xDFFF then
              let n := 0x10000 + (high - 0xD800) * 0x400 + (low - 0xDC00)
              readText (Char.ofNat n :: done) cs
            else none
        | _ => none
  | '\\' :: c :: cs =>
    match escape? c with
    | none => none
    | some e => readText (e :: done) cs
  | c :: cs => if c.toNat < 0x20 then none else readText (c :: done) cs

def digits (cs : List Char) : List Char × List Char :=
  (cs.takeWhile Char.isDigit, cs.dropWhile Char.isDigit)

/-- Reads the fraction of a number, if it has one. -/
def readFraction : List Char → Option (List Char × List Char)
  | '.' :: cs =>
    match digits cs with
    | ([], _) => none
    | (ds, cs) => some (ds, cs)
  | cs => some ([], cs)

def readExponent : List Char → Option (Option Int × List Char)
  | c :: cs =>
    if c == 'e' || c == 'E' then
      let (negative, cs) := match cs with
        | '-' :: cs => (true, cs)
        | '+' :: cs => (false, cs)
        | cs => (false, cs)
      match digits cs with
      | ([], _) => none
      | (ds, cs) =>
        let n : Int := digitsValue ds
        some (some (if negative then -n else n), cs)
    else some (none, c :: cs)
  | [] => some (none, [])

/-- The number of its parts: an integer if it is written as one and 64 bits hold it. -/
def number? (negative : Bool) (whole fraction : List Char) (exponent : Option Int) :
    Option Datum :=
  let n := digitsValue whole
  let isInt := fraction.isEmpty && exponent.isNone &&
    (if negative then 0 < n && n ≤ 0x8000000000000000 else n ≤ wordLimit)
  if isInt then some (.int (if negative then -n else n))
  else
    let x := Numeral.finite negative whole fraction (exponent.getD 0)
    x.scaled?.map fun _ => .real x

def readSign : List Char → Bool × List Char
  | '-' :: cs => (true, cs)
  | cs => (false, cs)

/-- Reads the digits before the point. A digit zero in front stands alone. -/
def readWhole : List Char → List Char × List Char
  | '0' :: cs => (['0'], cs)
  | cs => digits cs

def readNumber (cs : List Char) : Option (Datum × List Char) := do
  let (negative, cs) := readSign cs
  let (whole, cs) := readWhole cs
  guard !whole.isEmpty
  let (fraction, cs) ← readFraction cs
  let (exponent, cs) ← readExponent cs
  let d ← number? negative whole fraction exponent
  return (d, cs)

def isSpace (c : Char) : Bool := c == ' ' || c == '\n' || c == '\t' || c == '\r'

def readToken : List Char → Option (Token × List Char)
  | '[' :: cs => some (.openList, cs)
  | ']' :: cs => some (.closeList, cs)
  | '\x7b' :: cs => some (.openRecord, cs)
  | '\x7d' :: cs => some (.closeRecord, cs)
  | ',' :: cs => some (.comma, cs)
  | ':' :: cs => some (.colon, cs)
  | '"' :: cs => (readText [] cs).map fun (s, cs) => (.scalar (.text s), cs)
  | 't' :: 'r' :: 'u' :: 'e' :: cs => some (.scalar (.bool true), cs)
  | 'f' :: 'a' :: 'l' :: 's' :: 'e' :: cs => some (.scalar (.bool false), cs)
  | 'n' :: 'u' :: 'l' :: 'l' :: cs => some (.scalar .null, cs)
  | cs => (readNumber cs).map fun (d, cs) => (.scalar d, cs)

/-- Cuts a text into tokens, at most as many as given. -/
def tokens (cs : List Char) : Nat → Option (List Token)
  | 0 => none
  | n + 1 =>
    match cs.dropWhile isSpace with
    | [] => some []
    | cs =>
      match readToken cs with
      | none => none
      | some (t, cs) => (tokens cs n).map (t :: ·)

/-- A container that is open, with what it holds so far, last first. -/
inductive Frame
  | list (items : List Datum)
  | record (fields : List (String × Datum)) (name : String)

inductive Expecting
  /-- A value; in a list that has just been opened, also its end. -/
  | value (orEnd : Bool)
  /-- The name of a field; in a record that has just been opened, also its end. -/
  | name (fields : List (String × Datum)) (orEnd : Bool)
  /-- The colon after a name. -/
  | colon (fields : List (String × Datum)) (name : String)
  /-- A comma or the end of the container, after a value. -/
  | more (last : Datum)

/-- How far a text has been put together. -/
structure Progress where
  stack : List Frame := []
  expecting : Expecting := .value false

/-- No more containers may be open at once. -/
def depthLimit : Nat := 127

def Progress.enter (p : Progress) (stack : List Frame) (e : Expecting) : Option Progress :=
  if p.stack.length < depthLimit then some { stack, expecting := e } else none

/-- The list that a value ends. -/
def closeList? : List Frame → Datum → Option (Datum × List Frame)
  | .list items :: stack, last => some (.list (last :: items).reverse, stack)
  | _, _ => none

/-- Takes one token. A record keeps its frame while its value is read. -/
def step (p : Progress) (t : Token) : Option Progress :=
  match p.expecting, t with
  | .value _, .scalar d => some { p with expecting := .more d }
  | .value _, .openList => p.enter (.list [] :: p.stack) (.value true)
  | .value _, .openRecord => p.enter (.record [] "" :: p.stack) (.name [] true)
  | .value true, .closeList =>
    match p.stack with
    | .list [] :: stack => some { stack, expecting := .more (.list []) }
    | _ => none
  | .name fields _, .scalar (.text s) => some { p with expecting := .colon fields s }
  | .name _ true, .closeRecord => some { stack := p.stack.tail, expecting := .more (.record []) }
  | .colon fields s, .colon =>
    some { stack := .record fields s :: p.stack.tail, expecting := .value false }
  | .more d, .comma =>
    match p.stack with
    | .list items :: stack =>
      some { stack := .list (d :: items) :: stack, expecting := .value false }
    | .record fields s :: stack =>
      some { stack := .record [] "" :: stack, expecting := .name ((s, d) :: fields) false }
    | [] => none
  | .more d, .closeList =>
    (closeList? p.stack d).map fun (l, stack) => { stack, expecting := .more l }
  | .more d, .closeRecord =>
    match p.stack with
    | .record fields s :: stack =>
      some { stack, expecting := .more (.record ((s, d) :: fields).reverse) }
    | _ => none
  | _, _ => none

def steps (p : Progress) : List Token → Option Progress
  | [] => some p
  | t :: ts => (step p t).bind (steps · ts)

def parse? (s : String) : Option Datum :=
  match (tokens s.toList (s.length + 1)).bind (steps {}) with
  | some { stack := [], expecting := .more d } => some d
  | _ => none

end Storyworld.Json
