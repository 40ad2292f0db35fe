import CodeSurvey.Text.Basic

/-!
# Tables

A table is drawn with heavy lines around its head and light ones around its body. Every column is as
wide as its widest cell, with a blank on both sides.
-/

namespace CodeSurvey.Terminal

/-- A column of a table. -/
structure Column where
  title : String
  /-- Whether its cells end at the right. -/
  atRight : Bool := false
  deriving Repr, DecidableEq

/-- A table; every row has a cell for every column. -/
structure Table where
  /-- What stands above it in the middle. -/
  title : Option String := none
  columns : List Column
  rows : List (List String)
  deriving Repr, DecidableEq

namespace Table

/-- A text filled up with blanks. -/
def fill (atRight : Bool) (width : Nat) (text : String) : String :=
  let blanks := String.ofList (List.replicate (width - text.length) ' ')
  if atRight then blanks ++ text else text ++ blanks

/-- The widest of some texts. -/
def widest (texts : List String) : Nat := (texts.map (·.length)).foldl max 0

/-- The widths of the columns. -/
def widths (t : Table) : List Nat :=
  t.columns.mapIdx fun i c => widest (c.title :: t.rows.map fun row => (row[i]?).getD "")

/-- A line without text: its ends, the crossings and the stroke between them. -/
def rule (left cross right stroke : String) (widths : List Nat) : String :=
  let strokes (w : Nat) : String := Text.join "" (List.replicate (w + 2) stroke)
  left ++ Text.join cross (widths.map strokes) ++ right

/-- A line of cells with a separator. -/
def line (separator : String) (columns : List Column) (widths : List Nat) (cells : List String) :
    String :=
  let filled := (columns.zip (widths.zip cells)).map fun (c, w, text) => fill c.atRight w text
  separator ++ " " ++ Text.join (" " ++ separator ++ " ") filled ++ " " ++ separator

/-- The line of the title, in the middle of a width. -/
def titleLine (width : Nat) (title : String) : String :=
  fill true ((width - title.length) / 2 + title.length) title

/-- The lines of a table. -/
def lines (t : Table) : List String :=
  let ws := t.widths
  let top := rule "┏" "┳" "┓" "━" ws
  (t.title.map (titleLine top.length)).toList
    ++ [top, line "┃" t.columns ws (t.columns.map (·.title)), rule "┡" "╇" "┩" "━" ws]
    ++ t.rows.map (line "│" t.columns ws)
    ++ [rule "└" "┴" "┘" "─" ws]

end Table

end CodeSurvey.Terminal
