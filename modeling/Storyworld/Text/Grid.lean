import Storyworld.Text.Lowercase
import Storyworld.Text.WidthData

/-!
# Grids

A table drawn with ASCII lines. Each column is as wide as its widest line and has a blank on either
side; a line of equals signs stands below the heading and a line of dashes between rows.
-/

namespace Storyworld.Text

/-- The columns that a character takes. -/
def charWidth (c : Char) : Nat :=
  if c.toNat < 0x300 then if c.toNat = 0xAD then 0 else 1
  else if inRanges zeroWidthRanges c.toNat then 0
  else if inRanges wideRanges c.toNat then 2
  else 1

def width (s : String) : Nat := s.toList.foldr (fun c n => charWidth c + n) 0

namespace Grid

/-- Text repeated. -/
def fill (n : Nat) (c : Char) : String := String.ofList (List.replicate n c)

def cellLines (cell : String) : List String := cell.splitOn "\n"

def columnWidths (rows : List (List String)) : List Nat :=
  let columns := (rows.map List.length).foldl max 0
  (List.range columns).map fun i =>
    ((rows.flatMap fun r => cellLines (r[i]?.getD "")).map width).foldl max 0

def rule (left cross right : String) (c : Char) (widths : List Nat) : String :=
  left ++ String.intercalate cross (widths.map fun w => fill (w + 2) c) ++ right

def rowLines (widths : List Nat) (row : List String) : List String :=
  let cells := widths.mapIdx fun i w => (w, cellLines (row[i]?.getD ""))
  let height := (cells.map (·.2.length)).foldl max 0
  (List.range height).map fun i =>
    let parts := cells.map fun (w, lines) =>
      let text := lines[i]?.getD ""
      " " ++ text ++ fill (w - width text) ' ' ++ " "
    "|" ++ String.intercalate "|" parts ++ "|"

/-- Rows with a line between any two. -/
def separated (between : String) (rows : List (List String)) : List String :=
  List.flatten (rows.intersperse [between])

def render (heading : Option (List String)) (rows : List (List String)) : String :=
  let widths := columnWidths (heading.toList ++ rows)
  let border := rule "+" "+" "+" '-' widths
  let head := match heading with
    | some cells => rowLines widths cells ++ [rule "+" "=" "+" '=' widths]
    | none => []
  let body := separated (rule "|" "+" "|" '-' widths) (rows.map (rowLines widths))
  String.intercalate "\n" ([border] ++ head ++ body ++ [border])

end Grid
end Storyworld.Text
