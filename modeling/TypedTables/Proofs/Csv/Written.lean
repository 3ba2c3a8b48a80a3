/-
Rows written as lines of text and read back. A row is written as its cells with commas between them and
a line feed behind them. Cells that hold no comma and no terminator come back as they are, and a row
with a cell that is not blank fills its line, so every record stands on the line that its row was
written to. Main statement: `parse_writeRows`.
-/
import TypedTables.Proofs.Csv.Segments

namespace TypedTables.Csv

open TypedTables.Text

/-! ## Writing -/

/-- A row as a line of text. -/
def writeRow (cells : List String) : String := String.intercalate "," cells ++ "\n"

/-- Rows as lines of text, one below the other. -/
def writeRows (rows : List (List String)) : String := String.join (rows.map writeRow)

/-- A cell that a line can hold: it has no comma and no terminator. -/
def IsPlain (cell : String) : Prop := ',' ∉ cell.toList ∧ '\r' ∉ cell.toList ∧ '\n' ∉ cell.toList

instance (cell : String) : Decidable (IsPlain cell) := inferInstanceAs (Decidable (_ ∧ _ ∧ _))

/-- A row that is read back from its line: its cells are plain, and one of them is not blank. -/
structure IsWritable (cells : List String) : Prop where
  plain : ∀ cell ∈ cells, IsPlain cell
  filled : ∃ cell ∈ cells, isBlankText cell = false

/-- The characters of a row's line. -/
def lineOf (cells : List String) : List Char := [','].intercalate (cells.map String.toList)

theorem toList_writeRows (rows : List (List String)) :
    (writeRows rows).toList = rows.flatMap fun cells => lineOf cells ++ ['\n'] := by
  simp [writeRows, writeRow, lineOf, String.toList_join, String.toList_intercalate, List.flatMap_map]

theorem lineOf_singleton (cell : String) : lineOf [cell] = cell.toList := by
  simp [lineOf]

theorem lineOf_cons_cons (cell next : String) (cells : List String) :
    lineOf (cell :: next :: cells) = cell.toList ++ ',' :: lineOf (next :: cells) := by
  simp [lineOf]

/-! ## One line -/

theorem IsPlain.not_isTerminator {cell : String} (h : IsPlain cell) {c : Char} (hc : c ∈ cell.toList) :
    isTerminator c = false := by
  obtain ⟨-, hreturn, hfeed⟩ := h
  have hne : c ≠ '\n' ∧ c ≠ '\r' := by
    constructor <;> rintro rfl
    · exact hfeed hc
    · exact hreturn hc
  simp [isTerminator, hne]

theorem not_isTerminator_of_mem_lineOf : ∀ {cells : List String}, (∀ cell ∈ cells, IsPlain cell) →
    ∀ c ∈ lineOf cells, isTerminator c = false
  | [], _, c, hc => by cases hc
  | [cell], h, c, hc => by
    rw [lineOf_singleton] at hc
    exact (h cell (List.mem_cons_self ..)).not_isTerminator hc
  | cell :: next :: cells, h, c, hc => by
    rw [lineOf_cons_cons, List.mem_append, List.mem_cons] at hc
    rcases hc with hc | rfl | hc
    · exact (h cell (List.mem_cons_self ..)).not_isTerminator hc
    · rfl
    · exact not_isTerminator_of_mem_lineOf (fun cell hcell => h cell (List.mem_cons_of_mem _ hcell)) c hc

/-- A line is cut into the cells that it was written from. -/
theorem splitCells_lineOf {cells : List String} (h : ∀ cell ∈ cells, IsPlain cell) (hne : cells ≠ []) :
    (splitCells (lineOf cells)).map String.ofList = cells := by
  have hcomma : ∀ chars ∈ cells.map String.toList, ',' ∉ chars := by
    intro chars hchars
    obtain ⟨cell, hcell, rfl⟩ := List.mem_map.1 hchars
    exact (h cell hcell).1
  rw [splitCells_eq_splitOn, lineOf, List.splitOn_intercalate ',' hcomma (by simpa using hne),
    List.map_map]
  simp [Function.comp_def]

theorem IsWritable.ne_nil {cells : List String} (h : IsWritable cells) : cells ≠ [] := by
  obtain ⟨cell, hcell, -⟩ := h.filled
  exact List.ne_nil_of_mem hcell

/-- The line of a row is not empty: an empty line has one cell, which is blank. -/
theorem IsWritable.lineOf_ne_nil {cells : List String} (h : IsWritable cells) : lineOf cells ≠ [] := by
  intro hline
  have hcells := splitCells_lineOf h.plain h.ne_nil
  rw [hline] at hcells
  obtain ⟨cell, hcell, hfilled⟩ := h.filled
  rw [← hcells] at hcell
  obtain rfl : cell = "" := by simpa [splitCells] using hcell
  cases hfilled

theorem IsWritable.isBlank {cells : List String} (h : IsWritable cells) (line : Nat) :
    Record.isBlank ⟨line, cells⟩ = false :=
  Record.isBlank_eq_false.2 h.filled

/-! ## Records of written rows -/

/-- The open record takes in every character up to a terminator. -/
theorem recordsFrom_append (start line : Nat) (rest : List Char) : ∀ (chars current : List Char),
    (∀ c ∈ chars, isTerminator c = false) →
      recordsFrom start line current (chars ++ rest) = recordsFrom start line (chars.reverse ++ current) rest
  | [], _, _ => rfl
  | c :: chars, current, h => by
    have hc : isTerminator c = false := h c (List.mem_cons_self ..)
    have hstep : recordsFrom start line current (c :: (chars ++ rest)) =
        recordsFrom start line (c :: current) (chars ++ rest) := by
      cases current <;> simp [recordsFrom, hc]
    rw [List.cons_append, hstep, recordsFrom_append start line rest chars (c :: current) fun c' hc' =>
      h c' (List.mem_cons_of_mem _ hc')]
    simp

/-- A line that is not empty is a record, and the next record is that of the next line. -/
theorem recordsFrom_line (start line : Nat) {chars : List Char} (rest : List Char) (hne : chars ≠ [])
    (h : ∀ c ∈ chars, isTerminator c = false) :
    recordsFrom start line [] (chars ++ '\n' :: rest) =
      (start, chars) :: recordsFrom (line + 1) (line + 1) [] rest := by
  rw [recordsFrom_append start line ('\n' :: rest) chars [] h, List.append_nil]
  cases hreverse : chars.reverse with
  | nil => exact absurd (List.reverse_eq_nil_iff.1 hreverse) hne
  | cons p ps =>
    rw [List.reverse_eq_iff.1 hreverse]
    simp [recordsFrom, isTerminator, nextLine]

theorem recordsFrom_lines : ∀ (n : Nat) {rows : List (List String)}, (∀ cells ∈ rows, IsWritable cells) →
    recordsFrom n n [] (rows.flatMap fun cells => lineOf cells ++ ['\n']) =
      rows.mapIdx fun i cells => (n + i, lineOf cells)
  | n, [], _ => rfl
  | n, cells :: rows, h => by
    have hcells := h cells (List.mem_cons_self ..)
    have hrows := recordsFrom_lines (n + 1) fun cells hmem => h cells (List.mem_cons_of_mem _ hmem)
    rw [List.flatMap_cons, List.append_assoc, List.singleton_append,
      recordsFrom_line n n _ hcells.lineOf_ne_nil (not_isTerminator_of_mem_lineOf hcells.plain), hrows,
      List.mapIdx_cons]
    simp only [Nat.add_zero, Nat.add_assoc, Nat.add_comm 1]

theorem withoutMarks_eq {cs : List Char} (h : cs.head? ≠ some '\uFEFF') : withoutMarks cs = cs := by
  cases cs with
  | nil => rfl
  | cons c cs =>
    have hc : c ≠ '\uFEFF' := by simpa using h
    simp [withoutMarks, hc]

/-- A text opens with a mark only if its first cell does. -/
theorem head?_toList_writeRows {cell : String} (hcell : cell.toList.head? ≠ some '\uFEFF')
    (cells : List String) (rows : List (List String)) :
    (writeRows ((cell :: cells) :: rows)).toList.head? ≠ some '\uFEFF' := by
  rw [toList_writeRows, List.flatMap_cons]
  cases cells with
  | nil =>
    rw [lineOf_singleton]
    cases hchars : cell.toList with
    | nil => simp
    | cons c chars => simpa [hchars] using hcell
  | cons next cells =>
    rw [lineOf_cons_cons]
    cases hchars : cell.toList with
    | nil => simp
    | cons c chars => simpa [hchars] using hcell

theorem map_mapIdx {α β γ : Type} (f : Nat → α → β) (g : β → γ) (as : List α) :
    (as.mapIdx f).map g = as.mapIdx fun i a => g (f i a) := by
  refine List.ext_getElem (by simp) ?_
  intro i _ _
  rw [List.getElem_map, List.getElem_mapIdx, List.getElem_mapIdx]

/-- Written rows are read as one record each, in order, on the lines from the first on. -/
theorem records_writeRows {rows : List (List String)} (h : ∀ cells ∈ rows, IsWritable cells)
    (hmark : (writeRows rows).toList.head? ≠ some '\uFEFF') :
    records (writeRows rows) = rows.mapIdx fun i cells => ⟨i + 1, cells⟩ := by
  rw [records, dropMark_dropMark, withoutMarks_eq hmark, toList_writeRows, recordsFrom_lines 1 h,
    map_mapIdx, List.mapIdx_eq_mapIdx_iff]
  intro i hi
  have hcells := h rows[i] (List.getElem_mem hi)
  rw [splitCells_lineOf hcells.plain hcells.ne_nil, Nat.add_comm 1]

/-! ## Tables -/

/-- The names, the types and the data of a table that is read back from its text. The cells are plain
and all rows are as wide as that of the names. Names and types are trimmed, and some are not empty; in
a row of data some cell is not blank. The first name does not open with a byte order mark. -/
structure Writable (names types : List String) (data : List (List String)) : Prop where
  plain : ∀ cells ∈ names :: types :: data, ∀ cell ∈ cells, IsPlain cell
  widths : ∀ cells ∈ types :: data, cells.length = names.length
  trimmed : ∀ cell ∈ names ++ types, trim cell = cell
  named : ∃ cell ∈ names, cell ≠ ""
  typed : ∃ cell ∈ types, cell ≠ ""
  filled : ∀ cells ∈ data, ∃ cell ∈ cells, isBlankText cell = false
  unmarked : ∀ cell ∈ names.head?, cell.toList.head? ≠ some '\uFEFF'

variable {names types : List String} {data : List (List String)}

theorem exists_filled {cells : List String} (htrimmed : ∀ cell ∈ cells, trim cell = cell)
    (h : ∃ cell ∈ cells, cell ≠ "") : ∃ cell ∈ cells, isBlankText cell = false := by
  obtain ⟨cell, hcell, hne⟩ := h
  refine ⟨cell, hcell, ?_⟩
  rw [isBlankText, htrimmed cell hcell]
  simpa using hne

theorem Writable.isWritable (h : Writable names types data) :
    ∀ cells ∈ names :: types :: data, IsWritable cells := by
  intro cells hcells
  refine ⟨h.plain cells hcells, ?_⟩
  rcases List.mem_cons.1 hcells with rfl | hcells
  · exact exists_filled (fun cell hcell => h.trimmed cell (List.mem_append_left _ hcell)) h.named
  · rcases List.mem_cons.1 hcells with rfl | hcells
    · exact exists_filled (fun cell hcell => h.trimmed cell (List.mem_append_right _ hcell)) h.typed
    · exact h.filled cells hcells

theorem Writable.head?_ne_mark (h : Writable names types data) :
    (writeRows (names :: types :: data)).toList.head? ≠ some '\uFEFF' := by
  cases names with
  | nil =>
    obtain ⟨cell, hcell, -⟩ := h.named
    cases hcell
  | cons cell cells => exact head?_toList_writeRows (h.unmarked cell rfl) cells (types :: data)

theorem trimmed_eq {cells : List String} (h : ∀ cell ∈ cells, trim cell = cell) (line : Nat) :
    Record.trimmed ⟨line, cells⟩ = cells :=
  (List.map_congr_left h).trans (List.map_id cells)

/-- Records that are as wide as the first one are rows, and none is left out. -/
theorem ofRows_of_widths {a b : Record} {data : List Record}
    (htypes : b.cells.length = a.cells.length) (h : ∀ r ∈ data, r.cells.length = a.cells.length) :
    Table.ofRows a b data =
      .ok ⟨a.trimmed, b.trimmed, data.map fun r => Row.ofCells r.line a.trimmed r.cells, []⟩ := by
  have hrows : data.map (rowOfRecord a.trimmed) =
      data.map fun r => .ok (Row.ofCells r.line a.trimmed r.cells) := by
    refine List.map_congr_left ?_
    intro r hr
    rw [rowOfRecord, if_pos (by rw [Record.length_trimmed, h r hr])]
  rw [Table.ofRows, if_pos (by rw [Record.length_trimmed, Record.length_trimmed, htypes]), hrows]
  simp [Function.comp_def, Except.toOption]

/-- A table that is written is read back: its names, its types, and a row for each row of data with
the cells under the names as they are, from line 3 on, and no row is left out. -/
theorem parse_writeRows (h : Writable names types data) :
    Table.parse (writeRows (names :: types :: data)) =
      .ok ⟨names, types, data.mapIdx fun i cells => ⟨i + 3, names.zip cells⟩, []⟩ := by
  have hfilled : ∀ r ∈ (names :: types :: data).mapIdx fun i cells => (⟨i + 1, cells⟩ : Record),
      r.isBlank = false := by
    intro r hr
    obtain ⟨i, hi, rfl⟩ := List.mem_mapIdx.1 hr
    exact (h.isWritable _ (List.getElem_mem hi)).isBlank _
  have hrecords : (records (writeRows (names :: types :: data))).filter (fun r => !r.isBlank) =
      ⟨1, names⟩ :: ⟨2, types⟩ :: data.mapIdx fun i cells => ⟨i + 3, cells⟩ := by
    rw [records_writeRows h.isWritable h.head?_ne_mark,
      List.filter_eq_self.2 fun r hr => by rw [hfilled r hr]; rfl, List.mapIdx_cons, List.mapIdx_cons]
  have hnames := (h.isWritable names (List.mem_cons_self ..)).isBlank
  have htypes := (h.isWritable types (by simp)).isBlank
  have hdata : ∀ r ∈ data.mapIdx fun i cells => (⟨i + 3, cells⟩ : Record),
      r.cells.length = names.length := by
    intro r hr
    obtain ⟨i, hi, rfl⟩ := List.mem_mapIdx.1 hr
    exact h.widths _ (List.mem_cons_of_mem _ (List.getElem_mem hi))
  rw [Table.parse, hrecords, Table.ofRecords_cons_cons (hnames 1) (htypes 2), ofRows_of_widths (h.widths types (List.mem_cons_self ..)) hdata,
    trimmed_eq fun cell hcell => h.trimmed cell (List.mem_append_left _ hcell),
    trimmed_eq fun cell hcell => h.trimmed cell (List.mem_append_right _ hcell), map_mapIdx]
  rfl

/-- A table whose cells are empty at both ends of a row, hold quotes and end in blanks that are not
ASCII. -/
theorem parse_writeRows_quotes :
    Writable ["", "\"A b\""] ["int", ""] [["\"", "\u00A0x \u3000"], ["", "\uFEFF"]] ∧
      writeRows [["", "\"A b\""], ["int", ""], ["\"", "\u00A0x \u3000"], ["", "\uFEFF"]] =
        ",\"A b\"\nint,\n\",\u00A0x \u3000\n,\uFEFF\n" ∧
      Table.parse (writeRows
          [["", "\"A b\""], ["int", ""], ["\"", "\u00A0x \u3000"], ["", "\uFEFF"]]) =
        .ok ⟨["", "\"A b\""], ["int", ""], [⟨3, [("", "\""), ("\"A b\"", "\u00A0x \u3000")]⟩,
          ⟨4, [("", ""), ("\"A b\"", "\uFEFF")]⟩], []⟩ := by
  have hwritable :
      Writable ["", "\"A b\""] ["int", ""] [["\"", "\u00A0x \u3000"], ["", "\uFEFF"]] :=
    { plain := by decide
      widths := by decide
      trimmed := by decide
      named := by decide
      typed := by decide
      filled := by decide
      unmarked := by decide }
  exact ⟨hwritable, by decide, parse_writeRows hwritable⟩

end TypedTables.Csv
