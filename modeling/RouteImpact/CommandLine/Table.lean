import RouteImpact.Data.Total
import RouteImpact.Text.Basic
import RouteImpact.Text.Width

namespace RouteImpact.CommandLine

/-!
# Tables

A table has a title centred over it, a heavy frame around its heading and a light
one around its rows.  Every column is as wide as its widest cell.
-/

/-- A title, a heading and rows, all rows as long as the heading. -/
structure Table where
  title : String
  heading : List String
  rows : List (List String)

namespace Table

/-- As many blanks. -/
def blanks (n : Nat) : String := String.ofList (List.replicate n ' ')

/-- A text filled up with blanks. -/
def padded (width : Nat) (s : String) : String := s ++ blanks (width - Text.width s)

/-- The width of each column. -/
def widths (t : Table) : List Nat :=
  t.rows.foldl (fun ws row => ws.zipWith (fun w cell => max w (Text.width cell)) row)
    (t.heading.map Text.width)

/-- A line of cells between bars. -/
def cells (bar : String) (widths : List Nat) (row : List String) : String :=
  bar ++ String.join (widths.zipWith (fun w cell => " " ++ padded w cell ++ " " ++ bar) row)

/-- A line of the frame. -/
def rule (left middle right stroke : String) (widths : List Nat) : String :=
  left ++ Text.join middle (widths.map fun w => String.join (List.replicate (w + 2) stroke)) ++
    right

/-- The width of the whole table. -/
def totalWidth (widths : List Nat) : Nat := total widths + 3 * widths.length + 1

/-- The lines of a table. -/
def lines (t : Table) : List String :=
  let ws := t.widths
  let margin := blanks ((totalWidth ws - Text.width t.title) / 2)
  [margin ++ t.title,
   rule "┏" "┳" "┓" "━" ws,
   cells "┃" ws t.heading,
   rule "┡" "╇" "┩" "━" ws] ++
  t.rows.map (cells "│" ws) ++
  [rule "└" "┴" "┘" "─" ws]

end Table

end RouteImpact.CommandLine
