/-
Rows of blank cells where the names or the types of a table should stand. Reading leaves such rows out
before it takes the first two rows for the names and the types, so it does not refuse a text for them:
the rows below move up. Main statement: `parse_emptyRow`, which tells exactly which texts with such a
row are refused, and which rows are the names and the types of the others.
-/
import TypedTables.Proofs.Csv.Segments

namespace TypedTables.Csv

open TypedTables.Text

/-! ## Reading rows -/

/-- A row of blank cells, with a comma in it at least. -/
structure IsEmptyRow (cells : List String) : Prop where
  comma : 2 ≤ cells.length
  blank : cells.all isBlankText = true

instance (cells : List String) : Decidable (IsEmptyRow cells) :=
  decidable_of_iff (2 ≤ cells.length ∧ cells.all isBlankText = true)
    ⟨fun h => ⟨h.1, h.2⟩, fun h => ⟨h.comma, h.blank⟩⟩

/-- The rows with a cell that is not blank. -/
def filledRows (rows : List (List String)) : List (List String) :=
  rows.filter fun cells => !cells.all isBlankText

theorem filledRows_cons_blank {cells : List String} (h : cells.all isBlankText = true)
    (rows : List (List String)) : filledRows (cells :: rows) = filledRows rows :=
  List.filter_cons_of_neg (by simp [h])

theorem filledRows_cons_filled {cells : List String} (h : cells.all isBlankText = false)
    (rows : List (List String)) : filledRows (cells :: rows) = cells :: filledRows rows :=
  List.filter_cons_of_pos (by simp [h])

/-- Rows whose first two can be the names and the types of a table. -/
def StartsTable (rows : List (List String)) : Prop :=
  ∃ names types data, rows = names :: types :: data ∧ names.length = types.length

/-- What reading gives for a text whose rows are `rows`: it is refused unless they start a table, and a
table has the first row as its names and the second as its types, with a text in each. -/
structure ReadsRows (rows : List (List String)) (result : Except Malformed Table) : Prop where
  refused : (∃ e, result = .error e) ↔ ¬ StartsTable rows
  accepted : ∀ t, result = .ok t → (∃ names types data, rows = names :: types :: data ∧
    t.Holds names types data) ∧ (∃ name ∈ t.header, name ≠ "") ∧ ∃ token ∈ t.types, token ≠ ""

theorem readsRows_error {rows : List (List String)} (e : Malformed) (h : ¬ StartsTable rows) :
    ReadsRows rows (.error e) where
  refused := iff_of_true ⟨e, rfl⟩ h
  accepted := by rintro t ⟨⟩

/-- Records that hold a text are read by their cells alone. -/
theorem readsRows_ofRecords {kept : List Record} (hkept : ∀ r ∈ kept, r.isBlank = false) :
    ReadsRows (kept.map Record.cells) (Table.ofRecords kept) := by
  rcases kept with _ | ⟨a, _ | ⟨b, data⟩⟩
  · refine readsRows_error _ ?_
    rintro ⟨_, _, _, ⟨⟩, -⟩
  · rw [Table.ofRecords_singleton (hkept a (by simp))]
    refine readsRows_error _ ?_
    rintro ⟨_, _, _, ⟨⟩, -⟩
  · rw [Table.ofRecords_cons_cons (hkept a (by simp)) (hkept b (by simp)), Table.ofRows,
      Record.length_trimmed, Record.length_trimmed]
    split
    · rename_i hwidth
      refine ⟨iff_of_false ?_ (not_not.2 ⟨_, _, _, rfl, hwidth⟩), ?_⟩
      · rintro ⟨e, ⟨⟩⟩
      · rintro t ⟨⟩
        exact ⟨⟨_, _, _, rfl, holds_ofRecords a b data⟩, Record.exists_trimmed (hkept a (by simp)),
          Record.exists_trimmed (hkept b (by simp))⟩
    · rename_i hwidth
      refine readsRows_error _ ?_
      rintro ⟨_, _, _, ⟨⟩, h⟩
      exact hwidth h

theorem readsRows_parse (text : String) : ReadsRows (filledSegments text) (Table.parse text) := by
  rw [← cells_filled]
  exact readsRows_ofRecords fun _ => Record.isBlank_of_mem_filter _

theorem ofRecords_ne_empty {kept : List Record} (hkept : ∀ r ∈ kept, r.isBlank = false) :
    Table.ofRecords kept ≠ .error .emptyHeader ∧ Table.ofRecords kept ≠ .error .emptyTypes := by
  rcases kept with _ | ⟨a, _ | ⟨b, data⟩⟩
  · simp [Table.ofRecords]
  · simp [Table.ofRecords_singleton (hkept a (by simp))]
  · rw [Table.ofRecords_cons_cons (hkept a (by simp)) (hkept b (by simp)), Table.ofRows]
    split <;> simp

/-- No text is refused for an empty row of names or of types. -/
theorem parse_ne_empty (text : String) :
    Table.parse text ≠ .error .emptyHeader ∧ Table.parse text ≠ .error .emptyTypes :=
  ofRecords_ne_empty fun _ => Record.isBlank_of_mem_filter _

/-- A row of blank cells is left out where the names should stand, and where the types should stand
below names that are there: the text is read as the rows that hold something. So it is refused exactly
when these do not start a table, and otherwise the names and the types are those of later rows. -/
theorem parse_emptyRow (text : String) :
    (∀ row rest, segments text = row :: rest → IsEmptyRow row →
      ReadsRows (filledRows rest) (Table.parse text)) ∧
    ∀ names row rest, segments text = names :: row :: rest → names.all isBlankText = false →
      IsEmptyRow row → ReadsRows (names :: filledRows rest) (Table.parse text) := by
  have hparse : ReadsRows (filledRows (segments text)) (Table.parse text) := readsRows_parse text
  constructor
  · intro row rest htext hrow
    rwa [htext, filledRows_cons_blank hrow.blank] at hparse
  · intro names row rest htext hnames hrow
    rwa [htext, filledRows_cons_filled hnames, filledRows_cons_blank hrow.blank] at hparse

/-- An empty row over the names in a text that is a table, and one over the types in a text that is
refused for the width of the row below. -/
theorem parse_emptyRow_blanks :
    (segments "\uFEFF\n \t,\u3000\r\n,\nID\nint\n1" =
        [" \t", "\u3000"] :: [["", ""], ["ID"], ["int"], ["1"]] ∧
      IsEmptyRow [" \t", "\u3000"] ∧
      ReadsRows [["ID"], ["int"], ["1"]] (Table.parse "\uFEFF\n \t,\u3000\r\n,\nID\nint\n1")) ∧
    segments "ID,N\n,\n1\n" = ["ID", "N"] :: ["", ""] :: [["1"]] ∧
      ["ID", "N"].all isBlankText = false ∧ IsEmptyRow ["", ""] ∧
      ReadsRows [["ID", "N"], ["1"]] (Table.parse "ID,N\n,\n1\n") := by
  have hnames : filledRows [["", ""], ["ID"], ["int"], ["1"]] = [["ID"], ["int"], ["1"]] := by decide
  have htypes : filledRows [["1"]] = [["1"]] := by decide
  refine ⟨⟨by decide +kernel, by decide, ?_⟩, by decide +kernel, by decide, by decide, ?_⟩
  · exact hnames ▸ (parse_emptyRow "\uFEFF\n \t,\u3000\r\n,\nID\nint\n1").1 [" \t", "\u3000"]
      [["", ""], ["ID"], ["int"], ["1"]] (by decide +kernel) (by decide)
  · exact htypes ▸ (parse_emptyRow "ID,N\n,\n1\n").2 ["ID", "N"] ["", ""] [["1"]]
      (by decide +kernel) (by decide) (by decide)

/-- A table is read below an empty row of names, and with an empty row of types. -/
theorem emptyRow_not_refused :
    segments ",\nID\nint\n1\n" = ["", ""] :: [["ID"], ["int"], ["1"]] ∧ IsEmptyRow ["", ""] ∧
      Table.parse ",\nID\nint\n1\n" = .ok ⟨["ID"], ["int"], [⟨4, [("ID", "1")]⟩], []⟩ ∧
      segments "ID\n,\nint\n1\n" = ["ID"] :: ["", ""] :: [["int"], ["1"]] ∧
      ["ID"].all isBlankText = false ∧
      Table.parse "ID\n,\nint\n1\n" = .ok ⟨["ID"], ["int"], [⟨4, [("ID", "1")]⟩], []⟩ :=
  ⟨by decide +kernel, by decide, by rfl, by decide +kernel, by decide, by rfl⟩

end TypedTables.Csv
