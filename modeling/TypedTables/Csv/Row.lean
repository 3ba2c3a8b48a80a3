/-
Data rows of a table: the cells of one line, each with the name of its column, and the report of a
line whose number of cells is not that of the header.
-/

namespace TypedTables.Csv

/-- One data row. `line` is the line that reports about the row name. -/
structure Row where
  line : Nat
  cells : List (String × String)
  deriving DecidableEq, Repr

namespace Row

/-- Pairs column names with cell texts in order; what either list has more is left out. -/
def ofCells (line : Nat) (header values : List String) : Row :=
  ⟨line, header.zip values⟩

/-- The text of the first cell under a column name. -/
def get? (row : Row) (column : String) : Option String :=
  (row.cells.find? fun cell => cell.1 == column).map Prod.snd

def valueAt? (row : Row) (index : Nat) : Option String := row.cells[index]?.map Prod.snd

def size (row : Row) : Nat := row.cells.length

def isEmpty (row : Row) : Bool := row.cells.isEmpty

/-- A row too short for a position has no cell there. -/
theorem valueAt?_eq_none {row : Row} {index : Nat} (h : row.size ≤ index) :
    row.valueAt? index = none := by
  unfold valueAt?
  rw [List.getElem?_eq_none h, Option.map_none]

end Row

/-- A data row dropped because its number of cells is not the header's. -/
structure ShapeError where
  line : Nat
  expected : Nat
  found : Nat
  deriving DecidableEq, Repr

def ShapeError.message (e : ShapeError) : String :=
  "line " ++ toString e.line ++ ": expected " ++ toString e.expected ++ " cells, found " ++
    toString e.found

end TypedTables.Csv
