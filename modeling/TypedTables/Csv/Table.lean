/-
Reading the text of one table. A record ends at a carriage return or a line feed, records without
a character are skipped, and cells are cut at commas; quotes mean nothing. Records whose cells are
all blank are dropped. Of the records left the first names the columns, the second gives their
types and every further one is a data row, or is reported when its width is not the header's.

The line of a record is one more than the number of line feeds up to the end of the record before
it. A record ends right behind its first terminator, so the line feed of a pair `\r\n` and the
empty lines that follow count for the record after the next one only.
-/
import TypedTables.Csv.Row
import TypedTables.Text.Blank

namespace TypedTables.Csv

open TypedTables.Text

/-! ## Records -/

/-- Records end at a carriage return or a line feed. -/
def isTerminator (c : Char) : Bool := c == '\n' || c == '\r'

/-- The number of lines after `c` when `line` lines stand before it. -/
def nextLine (line : Nat) (c : Char) : Nat := if c == '\n' then line + 1 else line

/-- The records of a text, each with its line. `current` holds the characters of the open record
last first, `start` is the line it will get and `line` the line reached so far. -/
def recordsFrom (start line : Nat) : (current rest : List Char) → List (Nat × List Char)
  | [], [] => []
  | p :: ps, [] => [(start, (p :: ps).reverse)]
  | [], c :: rest =>
    if isTerminator c then recordsFrom start (nextLine line c) [] rest
    else recordsFrom start line [c] rest
  | p :: ps, c :: rest =>
    if isTerminator c then
      (start, (p :: ps).reverse) :: recordsFrom (nextLine line c) (nextLine line c) [] rest
    else recordsFrom start line (c :: p :: ps) rest

def splitCells : List Char → List (List Char)
  | [] => [[]]
  | c :: rest =>
    if c == ',' then [] :: splitCells rest
    else match splitCells rest with
      | [] => [[c]]
      | cell :: cells => (c :: cell) :: cells

/-- One record of the text: its line and the texts of its cells. -/
structure Record where
  line : Nat
  cells : List String
  deriving DecidableEq, Repr

/-- A record is blank when all its cells are. -/
def Record.isBlank (r : Record) : Bool := r.cells.all isBlankText

/-- The cells of a record without the blanks around them. -/
def Record.trimmed (r : Record) : List String := r.cells.map trim

theorem Record.isBlank_eq_false {r : Record} :
    r.isBlank = false ↔ ∃ cell ∈ r.cells, isBlankText cell = false := by
  simp [Record.isBlank]

/-- A record that is not blank has a cell with a text. -/
theorem Record.exists_trimmed {r : Record} (h : r.isBlank = false) : ∃ cell ∈ r.trimmed, cell ≠ "" := by
  obtain ⟨cell, hcell, hfilled⟩ := Record.isBlank_eq_false.1 h
  refine ⟨trim cell, List.mem_map_of_mem hcell, ?_⟩
  intro hempty
  rw [isBlankText, hempty] at hfilled
  cases hfilled

theorem Record.isBlank_of_mem_filter {records : List Record} :
    ∀ r ∈ records.filter fun r => !r.isBlank, r.isBlank = false := by
  intro r hr
  simpa using (List.mem_filter.1 hr).2

theorem Record.length_trimmed (r : Record) : r.trimmed.length = r.cells.length := by
  simp [Record.trimmed]

/-- Drops one leading byte order mark. -/
def dropMark : List Char → List Char
  | '\uFEFF' :: rest => rest
  | cs => cs

/-- All records of a text that hold a character. A text may open with two byte order marks. -/
def records (text : String) : List Record :=
  (recordsFrom 1 1 [] (dropMark (dropMark text.toList))).map fun r =>
    ⟨r.1, (splitCells r.2).map String.ofList⟩

/-! ## Tables -/

/-- Why a text is not a table. -/
inductive Malformed where
  | noHeader
  | emptyHeader
  | noTypes
  | emptyTypes
  | widths (header types : Nat)
  deriving DecidableEq, Repr

def Malformed.message : Malformed → String
  | .noHeader => "Malformed table: table is empty (missing header row)"
  | .emptyHeader => "Malformed table: header row is empty"
  | .noTypes => "Malformed table: missing type row"
  | .emptyTypes => "Malformed table: type row is empty"
  | .widths header types =>
    "Malformed table: header has " ++ toString header ++ " columns but type row has " ++
      toString types

/-- A table read from text: trimmed names and types, the data rows with their cells untouched and
the reports of the rows left out. -/
structure Table where
  header : List String
  types : List String
  rows : List Row
  rejected : List ShapeError
  deriving DecidableEq, Repr

/-- The data row of a record, or its report when its width is not the header's. -/
def rowOfRecord (header : List String) (r : Record) : Except ShapeError Row :=
  if r.cells.length = header.length then .ok (Row.ofCells r.line header r.cells)
  else .error ⟨r.line, header.length, r.cells.length⟩

/-- The table of the records for the names and the types and of those below them. -/
def Table.ofRows (h t : Record) (data : List Record) : Except Malformed Table :=
  if h.trimmed.length = t.trimmed.length then
    let rows := data.map (rowOfRecord h.trimmed)
    .ok ⟨h.trimmed, t.trimmed, rows.filterMap Except.toOption,
      rows.filterMap fun r => match r with
        | .ok _ => none
        | .error e => some e⟩
  else .error (.widths h.trimmed.length t.trimmed.length)

/-- Whether all cells of a record are empty. -/
def Record.isEmpty (r : Record) : Bool := r.trimmed.all String.isEmpty

/-- The table that the records without the blank ones make. -/
def Table.ofRecords : List Record → Except Malformed Table
  | [] => .error .noHeader
  | h :: rest =>
    if h.isEmpty then .error .emptyHeader
    else match rest with
      | [] => .error .noTypes
      | t :: data => if t.isEmpty then .error .emptyTypes else Table.ofRows h t data

/-! A record that is not blank is not empty, so the records that are left pass both checks. -/

theorem Record.isEmpty_of_filled {r : Record} (h : r.isBlank = false) : r.isEmpty = false := by
  obtain ⟨cell, hcell, hfilled⟩ := r.exists_trimmed h
  rw [Record.isEmpty, List.all_eq_false]
  exact ⟨cell, hcell, by simpa using hfilled⟩

theorem Table.ofRecords_singleton {h : Record} (hfilled : h.isBlank = false) :
    Table.ofRecords [h] = .error .noTypes := by
  simp only [Table.ofRecords, Record.isEmpty_of_filled hfilled, Bool.false_eq_true, if_false]

theorem Table.ofRecords_cons_cons {h t : Record} (hfilled : h.isBlank = false)
    (tfilled : t.isBlank = false) (data : List Record) :
    Table.ofRecords (h :: t :: data) = Table.ofRows h t data := by
  simp only [Table.ofRecords, Record.isEmpty_of_filled hfilled, Record.isEmpty_of_filled tfilled,
    Bool.false_eq_true, if_false]

def Table.parse (text : String) : Except Malformed Table :=
  Table.ofRecords ((records text).filter fun r => !r.isBlank)

end TypedTables.Csv
