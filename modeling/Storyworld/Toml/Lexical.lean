import Storyworld.Json.Reader

/-!
# The lexical level of TOML

Blanks, comments, the four kinds of strings, numbers and keys of TOML 1.0. Each reader takes what it
reads off the front of the text. Dates are not read: no document has a place for one, so a date is
as wrong as any other text that is no value.
-/

namespace Storyworld.Toml

open Json (hexDigit? hexValue? digits)

/-- Drops the blanks in front, not line breaks. -/
def skipBlanks (cs : List Char) : List Char := cs.dropWhile fun c => c == ' ' || c == '\t'

def lineBreak? : List Char → Option (List Char)
  | '\n' :: cs => some cs
  | '\r' :: '\n' :: cs => some cs
  | _ => none

/-- Whether a character may stand in a comment or a string: no control character but the tab. -/
def isPlain (c : Char) : Bool := c == '\t' || (0x20 ≤ c.toNat && c.toNat != 0x7f)

def skipComment : List Char → List Char
  | '#' :: cs => cs.dropWhile isPlain
  | cs => cs

/-- Drops blanks, comments and line breaks in front, at most as many lines as given. -/
def skipLines (cs : List Char) : Nat → List Char
  | 0 => cs
  | n + 1 =>
    let cs := skipComment (skipBlanks cs)
    match lineBreak? cs with
    | some cs => skipLines cs n
    | none => cs

def skipSpace (cs : List Char) : List Char := skipLines cs (cs.length + 1)

/-- Ends a line: after blanks and perhaps a comment the line or the text must end. -/
def endLine? (cs : List Char) : Option (List Char) :=
  match skipComment (skipBlanks cs) with
  | [] => some []
  | cs => lineBreak? cs

/-! ### Strings -/

/-- The character of a code point that is one. -/
def scalar? (n : Nat) : Option Char := if n.isValidChar then some (Char.ofNat n) else none

def readEscape : List Char → Option (Char × List Char)
  | 'b' :: cs => some ('\x08', cs)
  | 't' :: cs => some ('\t', cs)
  | 'n' :: cs => some ('\n', cs)
  | 'f' :: cs => some ('\x0c', cs)
  | 'r' :: cs => some ('\r', cs)
  | '"' :: cs => some ('"', cs)
  | '\\' :: cs => some ('\\', cs)
  | 'u' :: a :: b :: c :: d :: cs => do
    let e ← (hexValue? [a, b, c, d]).bind scalar?
    return (e, cs)
  | 'U' :: a :: b :: c :: d :: e :: f :: g :: h :: cs => do
    let e ← (hexValue? [a, b, c, d, e, f, g, h]).bind scalar?
    return (e, cs)
  | _ => none

/-- Reads a string in double quotes after its opening quote, at most as many pieces as given. -/
def readBasic (done : List Char) (cs : List Char) : Nat → Option (String × List Char)
  | 0 => none
  | n + 1 =>
    match cs with
    | '"' :: cs => some (String.ofList done.reverse, cs)
    | '\\' :: cs => (readEscape cs).bind fun (c, cs) => readBasic (c :: done) cs n
    | c :: cs => if isPlain c then readBasic (c :: done) cs n else none
    | [] => none

def readLiteral (done : List Char) : List Char → Option (String × List Char)
  | '\'' :: cs => some (String.ofList done.reverse, cs)
  | c :: cs => if isPlain c then readLiteral (c :: done) cs else none
  | [] => none

/-- Ends a string of several lines at three quotes; one or two more quotes belong to it. -/
def closeLong? (quote : Char) (done : List Char) : List Char → Option (String × List Char)
  | a :: b :: c :: cs =>
    if a == quote && b == quote && c == quote then
      match cs with
      | d :: e :: rest =>
        if d == quote && e == quote then
          some (String.ofList (quote :: quote :: done).reverse, rest)
        else if d == quote then some (String.ofList (quote :: done).reverse, e :: rest)
        else some (String.ofList done.reverse, cs)
      | [d] =>
        if d == quote then some (String.ofList (quote :: done).reverse, [])
        else some (String.ofList done.reverse, cs)
      | [] => some (String.ofList done.reverse, [])
    else none
  | _ => none

/-- Drops what a backslash at the end of a line joins: blanks and line breaks, at least one. -/
def skipJoin? (cs : List Char) : Option (List Char) :=
  (lineBreak? (skipBlanks cs)).map fun cs =>
    let rec go (cs : List Char) : Nat → List Char
      | 0 => cs
      | n + 1 =>
        match lineBreak? (skipBlanks cs) with
        | some cs => go cs n
        | none => skipBlanks cs
    go cs cs.length

/-- Reads a string of several lines after its opening quotes, at most as many pieces as given. A
line break counts as a line feed. -/
def readLong (quote : Char) (done : List Char) (cs : List Char) : Nat → Option (String × List Char)
  | 0 => none
  | n + 1 =>
    match closeLong? quote done cs with
    | some found => some found
    | none =>
      match lineBreak? cs with
      | some cs => readLong quote ('\n' :: done) cs n
      | none =>
        match cs with
        | [] => none
        | c :: cs =>
          if c == '\\' && quote == '"' then
            match skipJoin? cs with
            | some cs => readLong quote done cs n
            | none => (readEscape cs).bind fun (c, cs) => readLong quote (c :: done) cs n
          else if isPlain c then readLong quote (c :: done) cs n
          else none

/-- Drops the line break that may follow the opening quotes of a string of several lines. -/
def skipFirstBreak (cs : List Char) : List Char := (lineBreak? cs).getD cs

def readShortString? : List Char → Option (String × List Char)
  | '"' :: cs => readBasic [] cs (cs.length + 1)
  | '\'' :: cs => readLiteral [] cs
  | _ => none

def readString? : List Char → Option (String × List Char)
  | '"' :: '"' :: '"' :: cs => readLong '"' [] (skipFirstBreak cs) (cs.length + 1)
  | '\'' :: '\'' :: '\'' :: cs => readLong '\'' [] (skipFirstBreak cs) (cs.length + 1)
  | cs => readShortString? cs

/-! ### Numbers -/

/-- Splits off digits in front that single underscores may part; `after` says that a digit came
before. The underscores are dropped. -/
def readDigits (isDigit : Char → Bool) (after : Bool) : List Char → List Char × List Char
  | '_' :: c :: cs =>
    if after && isDigit c then
      let (ds, rest) := readDigits isDigit true cs
      (c :: ds, rest)
    else ([], '_' :: c :: cs)
  | c :: cs =>
    if isDigit c then
      let (ds, rest) := readDigits isDigit true cs
      (c :: ds, rest)
    else ([], c :: cs)
  | [] => ([], [])

/-- An integer if 64 bits hold it with its sign. -/
def int? (negative : Bool) (n : Nat) : Option Datum :=
  let n : Int := if negative then -n else n
  if -0x8000000000000000 ≤ n && n < 0x8000000000000000 then some (.int n) else none

/-- The value of a row of digits in a base up to sixteen. -/
def baseValue (base : Nat) (ds : List Char) : Nat :=
  ds.foldl (fun n c => base * n + (hexDigit? c).getD 0) 0

/-- Reads an integer in another base after its mark. -/
def readBase? (base : Nat) (cs : List Char) : Option (Datum × List Char) :=
  let (ds, rest) := readDigits (fun c => (hexDigit? c).any (· < base)) false cs
  if ds.isEmpty then none else (int? false (baseValue base ds)).map (·, rest)

def readSign : List Char → Bool × List Char
  | '-' :: cs => (true, cs)
  | '+' :: cs => (false, cs)
  | cs => (false, cs)

def readFraction? : List Char → Option (List Char × List Char)
  | '.' :: cs =>
    let (ds, rest) := readDigits Char.isDigit false cs
    if ds.isEmpty then none else some (ds, rest)
  | cs => some ([], cs)

def readExponent? : List Char → Option (Option Int × List Char)
  | c :: cs =>
    if c == 'e' || c == 'E' then
      let (negative, cs) := readSign cs
      let (ds, rest) := readDigits Char.isDigit false cs
      let n : Int := digitsValue ds
      if ds.isEmpty then none else some (some (if negative then -n else n), rest)
    else some (none, c :: cs)
  | [] => some (none, [])

/-- Reads a decimal number after its sign. More than one digit does not start with zero, and a
positive number is not too great for a double. -/
def readDecimal? (negative : Bool) (cs : List Char) : Option (Datum × List Char) := do
  let (whole, cs) := match cs with
    | '0' :: cs => (['0'], cs)
    | cs => readDigits Char.isDigit false cs
  guard !whole.isEmpty
  let (fraction, cs) ← readFraction? cs
  let (exponent, cs) ← readExponent? cs
  if fraction.isEmpty && exponent.isNone then
    let d ← int? negative (digitsValue whole)
    return (d, cs)
  else
    let x := Numeral.finite negative whole fraction (exponent.getD 0)
    guard (negative || !x.nearest.isInf)
    return (.real x, cs)

def readNumber? : List Char → Option (Datum × List Char)
  | '0' :: 'x' :: cs => readBase? 16 cs
  | '0' :: 'o' :: cs => readBase? 8 cs
  | '0' :: 'b' :: cs => readBase? 2 cs
  | cs =>
    match readSign cs with
    | (negative, 'i' :: 'n' :: 'f' :: cs) => some (.real (.infinite negative), cs)
    | (_, 'n' :: 'a' :: 'n' :: cs) => some (.real .nan, cs)
    | (negative, cs) => readDecimal? negative cs

/-! ### Keys -/

/-- Whether the character may stand in a key without quotes. -/
def isBareKey (c : Char) : Bool := c.isAlphanum || c == '-' || c == '_'

def readKeyPart? (cs : List Char) : Option (String × List Char) :=
  match cs.takeWhile isBareKey with
  | [] => readShortString? cs
  | name => some (String.ofList name, cs.dropWhile isBareKey)

/-- Keys have fewer parts, and values are nested less deeply. -/
def nestingLimit : Nat := 80

/-- Reads a key of parts with dots between them, at most as many parts as given. -/
def readParts? (cs : List Char) : Nat → Option (List String × List Char)
  | 0 => none
  | n + 1 => do
    let (part, cs) ← readKeyPart? (skipBlanks cs)
    match skipBlanks cs with
    | '.' :: cs =>
      let (parts, cs) ← readParts? cs n
      return (part :: parts, cs)
    | cs => return ([part], cs)

/-- Reads a key, with the blanks around it. -/
def readKey? (cs : List Char) : Option (List String × List Char) :=
  readParts? cs (nestingLimit - 1)

end Storyworld.Toml
