/-
What reading a text gives, said without records and their lines. The text is cut at every carriage
return and line feed and the segments at their commas, and a segment counts when one of its cells is
not blank. Main statement: `parse_segments`, which tells for every text whether it is a table and
what is in it.
-/
import TypedTables.Csv.Table
import Mathlib.Tactic

namespace TypedTables.Csv

open TypedTables.Text

/-! ## Segments of a text -/

/-- The characters behind the byte order marks that a text opens with, of which two are left out at
most. -/
def withoutMarks (cs : List Char) : List Char :=
  cs.drop (min 2 (cs.takeWhile (· == '\uFEFF')).length)

/-- The pieces between terminators that hold a character, each cut at its commas. -/
def segments (text : String) : List (List String) :=
  (((withoutMarks text.toList).splitOnP isTerminator).filter fun cs => !cs.isEmpty).map fun cs =>
    (cs.splitOn ',').map String.ofList

/-- The segments with a cell that is not blank. -/
def filledSegments (text : String) : List (List String) :=
  (segments text).filter fun cells => !cells.all isBlankText

theorem dropMark_dropMark : ∀ cs : List Char, dropMark (dropMark cs) = withoutMarks cs := by
  have hone {c : Char} (h : c ≠ '\uFEFF') (rest : List Char) : dropMark (c :: rest) = c :: rest := by
    unfold dropMark
    split
    · rename_i heq; cases heq; exact absurd rfl h
    · rfl
  intro cs
  match cs with
  | [] => rfl
  | [a] =>
    by_cases ha : a = '\uFEFF'
    · subst ha; rfl
    · rw [hone ha, hone ha]; simp [withoutMarks, ha]
  | a :: b :: rest =>
    by_cases ha : a = '\uFEFF'
    · subst ha
      by_cases hb : b = '\uFEFF'
      · subst hb; simp [dropMark, withoutMarks]
      · rw [dropMark, hone hb]; simp [withoutMarks, hb]
    · rw [hone ha, hone ha]; simp [withoutMarks, ha]

theorem modifyHead_nil_append (pieces : List (List Char)) :
    pieces.modifyHead ([].reverse ++ ·) = pieces := by
  cases pieces <;> rfl

/-- The records are the pieces between terminators that hold a character. -/
theorem recordsFrom_chars (start line : Nat) (current rest : List Char) :
    (recordsFrom start line current rest).map Prod.snd =
      ((rest.splitOnP isTerminator).modifyHead (current.reverse ++ ·)).filter
        fun cs => !cs.isEmpty := by
  fun_induction recordsFrom start line current rest with
  | case1 => rfl
  | case2 => simp
  | case3 start line c rest hc ih =>
    rw [ih, List.splitOnP_cons_eq_if_modifyHead, if_pos hc, modifyHead_nil_append]
    simp
  | case4 start line c rest hc ih =>
    rw [ih, List.splitOnP_cons_eq_if_modifyHead, if_neg hc, List.modifyHead_modifyHead]
    rfl
  | case5 start line p ps c rest hc ih =>
    rw [List.map_cons, ih, List.splitOnP_cons_eq_if_modifyHead, if_pos hc, modifyHead_nil_append]
    simp
  | case6 start line p ps c rest hc ih =>
    rw [ih, List.splitOnP_cons_eq_if_modifyHead, if_neg hc, List.modifyHead_modifyHead]
    simp [Function.comp_def]

theorem splitCells_eq_splitOn (cs : List Char) : splitCells cs = cs.splitOn ',' := by
  rw [List.splitOn_eq_splitOnP]
  induction cs with
  | nil => rfl
  | cons c rest ih =>
    rw [splitCells, ih, List.splitOnP_cons_eq_if_modifyHead]
    split
    · rfl
    · cases h : rest.splitOnP (· == ',') with
      | nil => exact absurd h (List.splitOnP_ne_nil _ _)
      | cons cell cells => rfl

theorem cells_records (text : String) : (records text).map Record.cells = segments text := by
  have hchars : (recordsFrom 1 1 [] (withoutMarks text.toList)).map Prod.snd =
      ((withoutMarks text.toList).splitOnP isTerminator).filter fun cs => !cs.isEmpty := by
    rw [recordsFrom_chars, modifyHead_nil_append]
  rw [records, dropMark_dropMark, segments, ← hchars, List.map_map, List.map_map]
  simp only [Function.comp_def, splitCells_eq_splitOn]

theorem cells_filled (text : String) :
    ((records text).filter fun r => !r.isBlank).map Record.cells = filledSegments text := by
  rw [filledSegments, ← cells_records, List.filter_map]
  rfl

/-! ## Tables -/

/-- What a table holds when its columns are named by `names`, their types are in `types` and its data
is in `data`, whatever lines are reported. -/
structure Table.Holds (t : Table) (names types : List String) (data : List (List String)) : Prop where
  header : t.header = names.map trim
  types : t.types = types.map trim
  /-- Every row has one cell for each column, in order. -/
  columns : ∀ row ∈ t.rows, row.cells.map Prod.fst = t.header
  rows : t.rows.map (fun row => row.cells.map Prod.snd) =
    data.filter fun cells => cells.length = t.header.length
  rejected : t.rejected.map (fun e => (e.expected, e.found)) =
    (data.filter fun cells => cells.length ≠ t.header.length).map
      fun cells => (t.header.length, cells.length)

theorem map_snd_ofCells {header values : List String} (h : values.length = header.length)
    (line : Nat) : (Row.ofCells line header values).cells.map Prod.snd = values :=
  List.map_snd_zip h.le

theorem map_fst_ofCells {header values : List String} (h : values.length = header.length)
    (line : Nat) : (Row.ofCells line header values).cells.map Prod.fst = header :=
  List.map_fst_zip h.ge

/-- The rows that records make have the cells of the records as wide as the header. -/
theorem rowsOfRecords (header : List String) (data : List Record) :
    ((data.map (rowOfRecord header)).filterMap Except.toOption).map
        (fun row => row.cells.map Prod.snd) =
      (data.map Record.cells).filter fun cells => cells.length = header.length := by
  induction data with
  | nil => rfl
  | cons r data ih =>
    by_cases hw : r.cells.length = header.length
    · have hrow : (rowOfRecord header r).toOption = some (Row.ofCells r.line header r.cells) := by
        rw [rowOfRecord, if_pos hw]; rfl
      rw [List.map_cons, List.filterMap_cons_some hrow, List.map_cons, map_snd_ofCells hw, ih,
        List.map_cons, List.filter_cons_of_pos (by simpa using hw)]
    · have hrow : (rowOfRecord header r).toOption = none := by
        rw [rowOfRecord, if_neg hw]; rfl
      rw [List.map_cons, List.filterMap_cons_none hrow, ih, List.map_cons,
        List.filter_cons_of_neg (by simpa using hw)]

theorem columnsOfRecords {header : List String} {data : List Record} {row : Row}
    (h : row ∈ (data.map (rowOfRecord header)).filterMap Except.toOption) :
    row.cells.map Prod.fst = header := by
  obtain ⟨made, hmade, hrow⟩ := List.mem_filterMap.1 h
  obtain ⟨r, -, rfl⟩ := List.mem_map.1 hmade
  by_cases hw : r.cells.length = header.length
  · rw [rowOfRecord, if_pos hw] at hrow
    cases hrow
    exact map_fst_ofCells hw r.line
  · rw [rowOfRecord, if_neg hw] at hrow
    cases hrow

/-- The reports that records make are those of the records not as wide as the header. -/
theorem rejectedOfRecords (header : List String) (data : List Record) :
    ((data.map (rowOfRecord header)).filterMap fun r => match r with
        | .ok _ => none
        | .error e => some e).map (fun e => (e.expected, e.found)) =
      ((data.map Record.cells).filter fun cells => cells.length ≠ header.length).map
        fun cells => (header.length, cells.length) := by
  induction data with
  | nil => rfl
  | cons r data ih =>
    by_cases hw : r.cells.length = header.length
    · have hrow : rowOfRecord header r = .ok (Row.ofCells r.line header r.cells) := if_pos hw
      simpa [hrow, hw] using ih
    · have hrow : rowOfRecord header r = .error ⟨r.line, header.length, r.cells.length⟩ := if_neg hw
      simpa [hrow, hw] using ih

theorem holds_ofRecords (a b : Record) (data : List Record) :
    Table.Holds
      ⟨a.trimmed, b.trimmed, (data.map (rowOfRecord a.trimmed)).filterMap Except.toOption,
        (data.map (rowOfRecord a.trimmed)).filterMap fun r => match r with
          | .ok _ => none
          | .error e => some e⟩
      a.cells b.cells (data.map Record.cells) where
  header := rfl
  types := rfl
  columns _ hrow := columnsOfRecords hrow
  rows := rowsOfRecords a.trimmed data
  rejected := rejectedOfRecords a.trimmed data

/-- A text is a table when two segments or more have a cell that is not blank and the first two are
equally wide. These give the names and the types, and each further one is a row when it is as wide as
they are and is reported otherwise. -/
theorem parse_segments (text : String) :
    match filledSegments text with
    | [] => Table.parse text = .error .noHeader
    | [_] => Table.parse text = .error .noTypes
    | names :: types :: data =>
      if names.length = types.length then
        ∃ t, Table.parse text = .ok t ∧ t.Holds names types data
      else Table.parse text = .error (.widths names.length types.length) := by
  rw [← cells_filled, Table.parse]
  have hkept : ∀ r ∈ (records text).filter fun r => !r.isBlank, r.isBlank = false :=
    Record.isBlank_of_mem_filter
  generalize (records text).filter (fun r => !r.isBlank) = kept at hkept ⊢
  match kept with
  | [] => rfl
  | [a] => exact Table.ofRecords_singleton (hkept a (by simp))
  | a :: b :: data =>
    have hwidths : a.trimmed.length = b.trimmed.length ↔ a.cells.length = b.cells.length := by
      rw [Record.trimmed, Record.trimmed, List.length_map, List.length_map]
    simp only [List.map_cons, Table.ofRecords_cons_cons (hkept a (by simp)) (hkept b (by simp)), Table.ofRows]
    by_cases hw : a.cells.length = b.cells.length
    · rw [if_pos hw, if_pos (hwidths.2 hw)]
      exact ⟨_, rfl, holds_ofRecords a b data⟩
    · rw [if_neg hw, if_neg (mt hwidths.1 hw)]
      simp only [Record.trimmed, List.length_map]

/-- Quotes do not hold a cell together, and a line of blanks is as good as none. -/
example : filledSegments "\uFEFF\uFEFFID, A\r\n\r\nint,int\n\"1, 2\"\n , \n3\n" =
    [["ID", " A"], ["int", "int"], ["\"1", " 2\""], ["3"]] := by
  decide +kernel

end TypedTables.Csv
