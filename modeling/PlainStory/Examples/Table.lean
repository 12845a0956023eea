import PlainStory.Examples.Row

/-!
# Examples tables

The text of a table has one line for the headers and one for each row, with a bar between cells.
`Table.ofText` reads it and `Table.render` writes it.
-/

namespace PlainStory

structure Table where
  headers : List Text
  rows : List Row
  /-- The text the table was read from. -/
  text : Text
deriving DecidableEq

namespace Table

def empty : Table := ⟨[], [], []⟩

/-! ### Reading -/

def dropFirstEmpty : List Text → List Text
  | [] :: cells => cells
  | cells => cells

def dropLastEmpty (cells : List Text) : List Text :=
  if cells.getLast? = some [] then cells.dropLast else cells

/-- The cells of a line. The bars at its two ends bound cells and make none. -/
def cellsOf (line : Text) : List Text :=
  dropLastEmpty (dropFirstEmpty ((Text.splitAt '|' line).map Text.trim))

/-- Whether a trimmed line holds cells: it is neither empty nor a comment. -/
def isData (line : Text) : Bool := line ≠ [] && !Text.startsWith "|--" line

/-- Gives each header its cell, or nothing where cells are missing. -/
def alignCells : List Text → List Text → List (Text × Text)
  | [], _ => []
  | h :: hs, [] => (h, []) :: alignCells hs []
  | h :: hs, c :: cs => (h, c) :: alignCells hs cs

/-- What one more line of cells adds: headers as long as there are none, else a row. -/
def addCells (t : Table) (cells : List Text) : Table :=
  if t.headers = [] then { t with headers := cells }
  else { t with rows := t.rows ++ [Row.ofPairs (alignCells t.headers cells)] }

def addLine (t : Table) (line : Text) : Table :=
  let line := Text.trim line
  if isData line then t.addCells (cellsOf line) else t

/-- The table that a text holds. -/
def ofText (text : Text) : Table :=
  let text := Text.trim text
  (Text.lines text).foldl addLine { empty with text := text }

/-! ### Writing -/

def renderCells (cells : List Text) : Text := cells.flatMap ('|' :: ·) ++ "|\n"

def render (t : Table) : Text :=
  renderCells t.headers ++ t.rows.flatMap fun r => renderCells r.values

end Table

end PlainStory
