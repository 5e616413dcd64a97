import Storyworld.Datum

/-!
# Writing JSON

A datum as JSON text, on one line or spread over lines with two spaces for each level. In a text
only quotes, backslashes and control characters are escaped. Numerals that are not integers are not
written; nothing that is written holds one.
-/

namespace Storyworld.Json

def hexChar (n : Nat) : Char := ("0123456789abcdef".toList[n]?).getD '0'

def escapeChar (c : Char) : List Char :=
  if c == '"' then ['\\', '"']
  else if c == '\\' then ['\\', '\\']
  else if c == '\n' then ['\\', 'n']
  else if c == '\r' then ['\\', 'r']
  else if c == '\t' then ['\\', 't']
  else if c == '\x08' then ['\\', 'b']
  else if c == '\x0c' then ['\\', 'f']
  else if c.toNat < 0x20 then
    ['\\', 'u', '0', '0', hexChar (c.toNat / 16), hexChar (c.toNat % 16)]
  else [c]

def quote (s : String) : String := String.ofList ('"' :: s.toList.flatMap escapeChar ++ ['"'])

mutual
/-- The text of a datum on one line. -/
def compact : Datum → String
  | .null => "null"
  | .bool b => if b then "true" else "false"
  | .int n => toString n
  | .real _ => "null"
  | .text s => quote s
  | .list items => "[" ++ String.intercalate "," (compactItems items) ++ "]"
  | .record fields => "\x7b" ++ String.intercalate "," (compactFields fields) ++ "\x7d"
def compactItems : List Datum → List String
  | [] => []
  | d :: ds => compact d :: compactItems ds
def compactFields : List (String × Datum) → List String
  | [] => []
  | (name, d) :: fs => (quote name ++ ":" ++ compact d) :: compactFields fs
end

def newline (level : Nat) : String := "\n" ++ String.ofList (List.replicate (2 * level) ' ')

/-- A container spread over lines, inside a level. -/
def spread (level : Nat) (left right : String) (parts : List String) : String :=
  if parts.isEmpty then left ++ right
  else
    left ++ newline (level + 1) ++ String.intercalate ("," ++ newline (level + 1)) parts ++
      newline level ++ right

mutual
/-- The text of a datum spread over lines, inside a level. -/
def prettyAt (level : Nat) : Datum → String
  | .list items => spread level "[" "]" (prettyItems (level + 1) items)
  | .record fields => spread level "\x7b" "\x7d" (prettyFields (level + 1) fields)
  | .null => compact .null
  | .bool b => compact (.bool b)
  | .int n => compact (.int n)
  | .real x => compact (.real x)
  | .text s => compact (.text s)
def prettyItems (level : Nat) : List Datum → List String
  | [] => []
  | d :: ds => prettyAt level d :: prettyItems level ds
def prettyFields (level : Nat) : List (String × Datum) → List String
  | [] => []
  | (name, d) :: fs => (quote name ++ ": " ++ prettyAt level d) :: prettyFields level fs
end

def pretty (d : Datum) : String := prettyAt 0 d

end Storyworld.Json
