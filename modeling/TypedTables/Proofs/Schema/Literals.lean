/-
The literals of a built schema. An enum column knows the texts that its own cells show in the rows the
schema is built from, blank cells apart, and no other; a column stands where its name stands in the
header. Main statement: `build_columnAt`.
-/
import TypedTables.Proofs.Schema.Build

namespace TypedTables.Schema

open TypedTables.Csv TypedTables.Text

variable {rows : List Row} {index : Nat} {text : String}

/-! ## Texts -/

/-- A row shows a text at a position when its cell there is that text between blanks. -/
def Shows (row : Row) (index : Nat) (text : String) : Prop :=
  ∃ raw, row.valueAt? index = some raw ∧ trim raw = text

theorem mem_columnTexts :
    text ∈ columnTexts index rows ↔ text ≠ "" ∧ ∃ row ∈ rows, Shows row index text := by
  unfold columnTexts Shows
  rw [List.mem_filter, List.mem_filterMap]
  simp only [Option.map_eq_some_iff, Bool.not_eq_true', String.isEmpty_eq_false_iff]
  exact And.comm

/-- Texts make the literals that have not been seen before them. -/
theorem mem_texts_literalsFrom : ∀ {texts seen taken : List String},
    text ∈ (literalsFrom seen taken texts).map Literal.text ↔ text ∈ texts ∧ text ∉ seen
  | [], _, _ => by simp [literalsFrom]
  | first :: rest, seen, taken => by
    rw [literalsFrom]
    split
    · -- a text that was seen makes no literal, and is not asked for
      rename_i hseen
      have hold : first ∈ seen := by simpa using hseen
      rw [mem_texts_literalsFrom, List.mem_cons]
      constructor
      · rintro ⟨hrest, hnew⟩
        exact ⟨.inr hrest, hnew⟩
      · rintro ⟨rfl | hrest, hnew⟩
        · exact absurd hold hnew
        · exact ⟨hrest, hnew⟩
    · rename_i hseen
      have hfirst : first ∉ seen := by simpa using hseen
      rw [List.map_cons, List.mem_cons, mem_texts_literalsFrom, List.mem_cons, List.mem_cons, not_or]
      constructor
      · rintro (rfl | ⟨hrest, -, hnew⟩)
        · exact ⟨.inl rfl, hfirst⟩
        · exact ⟨.inr hrest, hnew⟩
      · rintro ⟨rfl | hrest, hnew⟩
        · exact .inl rfl
        · by_cases heq : text = first
          · exact .inl heq
          · exact .inr ⟨hrest, heq, hnew⟩

/-- The texts of a column's literals are those that its cells show, the empty one apart. -/
theorem mem_texts_literals :
    text ∈ (literals index rows).map Literal.text ↔ text ≠ "" ∧ ∃ row ∈ rows, Shows row index text := by
  rw [literals, mem_texts_literalsFrom, mem_columnTexts]
  exact and_iff_left List.not_mem_nil

/-! ## Positions -/

/-- The enum of a column, if it is one, has the literals of the column's position. -/
theorem literals_columnsFrom {table : String} : ∀ {cells : List (String × String)} {index : Nat}
    {fields types : List String} {columns : List Column},
    columnsFrom table rows index fields types cells = .ok columns →
      ∀ {k : Nat} {c : Column} {e : EnumType}, columns[k]? = some c → c.kind = .enumeration e →
        e.literals = literals (index + k) rows
  | [], _, _, _, _, h, k, _, _, hk, _ => by
    cases h
    cases hk
  | (name, token) :: rest, index, fields, types, columns, h, k, c, e, hk, he => by
    simp only [columnsFrom] at h
    split at h
    · cases h
    · split at h
      · obtain ⟨columns', hrest, h⟩ := exists_of_bind_ok h
        cases h
        cases k with
        | zero => cases hk; cases he
        | succ k =>
          rw [literals_columnsFrom hrest hk he, Nat.succ_add_eq_add_succ]
      · obtain ⟨columns', hrest, h⟩ := exists_of_bind_ok h
        cases h
        cases k with
        | zero => cases hk; cases he; rfl
        | succ k =>
          rw [literals_columnsFrom hrest hk he, Nat.succ_add_eq_add_succ]

/-- A column of a schema that is built from a header and rows: its name stands at its position in the
header, and the texts of an enum are those that the rows show there. -/
structure ColumnAt (header : List String) (rows : List Row) (k : Nat) (c : Column) : Prop where
  name : header[k]? = some c.name
  texts : ∀ e, c.kind = .enumeration e →
    ∀ text, text ∈ e.texts ↔ text ≠ "" ∧ ∃ row ∈ rows, Shows row k text

theorem build_columnAt {stem : String} {header types : List String} {s : TableSchema}
    (h : build stem header types rows = .ok s) :
    header.Nodup ∧ ∀ c ∈ s.columns, ∃ k, ColumnAt header rows k c := by
  obtain ⟨names, columns, hb⟩ := build_cases h
  refine ⟨(nodup_of_headerFault? hb.headerValid).1, ?_⟩
  intro c hc
  rw [hb.eq] at hc
  obtain ⟨k, hk⟩ := List.mem_iff_getElem?.1 hc
  refine ⟨k, ?_, ?_⟩
  · rw [← hb.columnNames, List.getElem?_map, hk, Option.map_some]
  · intro e he text
    rw [EnumType.texts, literals_columnsFrom hb.columnsMade hk he, Nat.zero_add]
    exact mem_texts_literals

end TypedTables.Schema
