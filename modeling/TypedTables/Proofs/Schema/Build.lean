/-
What a successful naming of a table and a successful building of its schema say about their inputs
and results: every check passed, and the result is put together from the names and the columns. The
columns have the names of the header, no two of which are equal.
-/
import TypedTables.Schema.Builder

namespace TypedTables.Schema

open TypedTables.Csv TypedTables.Naming

/-- A stem names a table when its camel-case spelling passes every check. -/
structure TableNames.OfStem (stem : String) (names : TableNames) : Prop where
  eq : names = ofType (camelCase stem)
  identifier : isIdentifier names.typeName = true
  notKeyword : isKeyword names.typeName = false
  notReservedType : names.typeName ∉ reservedTypes
  notReservedModule : names.moduleName ∉ reservedModules

theorem TableNames.ofStem_cases {stem : String} {names : TableNames} (h : ofStem stem = .ok names) :
    OfStem stem names := by
  simp only [ofStem] at h
  split at h
  · cases h
  · split at h
    · cases h
    · rename_i hid
      split at h
      · cases h
      · rename_i hkey
        split at h
        · cases h
        · rename_i hmodule
          cases h
          simp only [Bool.or_eq_true, not_or, Bool.not_eq_true, List.contains_eq_mem,
            decide_eq_false_iff_not] at hkey hmodule
          exact ⟨rfl, by simpa using hid, hkey.1, hkey.2, hmodule⟩

/-- The module is named for the type. -/
theorem TableNames.OfStem.moduleName {stem : String} {names : TableNames} (h : OfStem stem names) :
    names.moduleName = fieldName names.typeName := by
  rw [h.eq, ofType]

/-- The parts of a built schema. -/
structure Built (stem : String) (header types : List String) (rows : List Row) (names : TableNames)
    (columns : List Column) (s : TableSchema) : Prop where
  widths : header.length = types.length
  named : TableNames.ofStem stem = .ok names
  headerValid : headerFault? [] header = none
  columnsMade : columnsFrom names.typeName rows 0 []
    (recordTypeName names.typeName :: names.typeName :: reservedTypes) (header.zip types) = .ok columns
  eq : s = ⟨names.typeName, names.moduleName, recordTypeName names.typeName, columns,
    columns.any Column.isKey⟩

theorem exists_of_bind_ok {ε α β : Type} {r : Except ε α} {f : α → Except ε β} {b : β}
    (h : (r >>= f) = .ok b) : ∃ a, r = .ok a ∧ f a = .ok b := by
  cases r with
  | error e => cases h
  | ok a => exact ⟨a, rfl, h⟩

theorem build_cases {stem : String} {header types : List String} {rows : List Row}
    {s : TableSchema} (h : build stem header types rows = .ok s) :
    ∃ names columns, Built stem header types rows names columns s := by
  simp only [build] at h
  split at h
  · rename_i hwidths
    split at h
    · cases h
    · rename_i names hnames
      split at h
      · cases h
      · rename_i hheader
        obtain ⟨columns, hcols, h⟩ := exists_of_bind_ok h
        cases h
        exact ⟨names, columns, hwidths, hnames, hheader, hcols, rfl⟩
  · cases h

/-- A built schema is given by the name of its table and its columns. -/
theorem build_eq {stem : String} {header types : List String} {rows : List Row} {s : TableSchema}
    (h : build stem header types rows = .ok s) :
    s = ⟨s.tableName, fieldName s.tableName, recordTypeName s.tableName, s.columns,
      s.columns.any Column.isKey⟩ := by
  obtain ⟨names, columns, hb⟩ := build_cases h
  have hmodule := (TableNames.ofStem_cases hb.named).moduleName
  rw [hb.eq, hmodule]

/-! ## Column names -/

theorem nodup_of_headerFault? : ∀ {header seen : List String}, headerFault? seen header = none →
    header.Nodup ∧ ∀ name ∈ header, name ∉ seen
  | [], _, _ => ⟨.nil, fun _ hname => by cases hname⟩
  | name :: rest, seen, h => by
    rw [headerFault?] at h
    split at h
    · cases h
    · split at h
      · cases h
      · rename_i hnew
        obtain ⟨hnodup, hrest⟩ := nodup_of_headerFault? h
        refine ⟨List.nodup_cons.2 ⟨?_, hnodup⟩, List.forall_mem_cons.2 ⟨by simpa using hnew, ?_⟩⟩
        · intro hmem
          exact hrest name hmem (List.mem_cons_self ..)
        · intro other hother hseen
          exact hrest other hother (List.mem_cons_of_mem _ hseen)

theorem names_columnsFrom {table : String} {rows : List Row} : ∀ {cells : List (String × String)}
    {index : Nat} {fields types : List String} {columns : List Column},
    columnsFrom table rows index fields types cells = .ok columns →
      columns.map Column.name = cells.map Prod.fst
  | [], _, _, _, _, h => by
    cases h
    rfl
  | (name, token) :: rest, index, fields, types, columns, h => by
    simp only [columnsFrom] at h
    split at h
    · cases h
    · split at h
      · obtain ⟨columns', hrest, h⟩ := exists_of_bind_ok h
        cases h
        rw [List.map_cons, List.map_cons, names_columnsFrom hrest]
      · obtain ⟨columns', hrest, h⟩ := exists_of_bind_ok h
        cases h
        rw [List.map_cons, List.map_cons, names_columnsFrom hrest]

/-- The columns of a built schema have the names of the header. -/
theorem Built.columnNames {stem : String} {header types : List String} {rows : List Row}
    {names : TableNames} {columns : List Column} {s : TableSchema}
    (hb : Built stem header types rows names columns s) : columns.map Column.name = header := by
  rw [names_columnsFrom hb.columnsMade, List.map_fst_zip (Nat.le_of_eq hb.widths)]

/-- No two columns of a built schema have one name. -/
theorem build_nodup_names {stem : String} {header types : List String} {rows : List Row}
    {s : TableSchema} (h : build stem header types rows = .ok s) : (s.columns.map Column.name).Nodup := by
  obtain ⟨names, columns, hb⟩ := build_cases h
  rw [hb.eq, hb.columnNames]
  exact (nodup_of_headerFault? hb.headerValid).1

end TypedTables.Schema
