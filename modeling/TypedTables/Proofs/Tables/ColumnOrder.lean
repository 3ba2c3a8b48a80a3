/-
Rows whose columns stand in another order, with further columns among them. Binding looks a cell up by
the name of its column, so only the cells under the names of the schema count, and where no name comes
twice their places do not. The column that is reported first is the first one of the schema. Main
statement: `bind_rearranged`, for tables bound by a schema and for the compiled ones.
-/
import TypedTables.Proofs.Entries
import TypedTables.Proofs.Tables.Compiled

namespace TypedTables.Binding

open TypedTables.Csv TypedTables.Json TypedTables.Schema

/-! ## Rows in another order -/

/-- The second row has the line of the first and the cells of the first in any order, with cells of
further columns among them. None of the further columns has one of the names. -/
structure Rearranged (names : List String) (row row' : Row) : Prop where
  line : row'.line = row.line
  cells : ∃ further, row'.cells.Perm (row.cells ++ further) ∧ ∀ cell ∈ further, cell.1 ∉ names

variable {names : List String} {row row' : Row} {column : String}

/-- Where no name comes twice in the first row, a cell under one of the names is the same in both. -/
theorem Rearranged.get? (h : Rearranged names row row') (hnodup : (row.cells.map Prod.fst).Nodup)
    (hcolumn : column ∈ names) : row'.get? column = row.get? column := by
  obtain ⟨further, hperm, hfurther⟩ := h.cells
  -- what is found in the second row is in the first, since it is in no further column
  have hfound : ∀ raw, row'.get? column = some raw → row.get? column = some raw := by
    intro raw hraw
    rcases List.mem_append.1 (hperm.mem_iff.1 (mem_of_find? hraw)) with hmem | hmem
    · exact find?_of_mem hnodup hmem
    · exact absurd hcolumn (hfurther _ hmem)
  cases hraw : row'.get? column with
  | some raw => exact (hfound raw hraw).symm
  | none =>
    have hnone : column ∉ row'.cells.map Prod.fst := find?_eq_none_iff.1 hraw
    refine (find?_eq_none_iff.2 ?_).symm
    intro hmem
    obtain ⟨cell, hcell, rfl⟩ := List.mem_map.1 hmem
    exact hnone (List.mem_map_of_mem (hperm.mem_iff.2 (List.mem_append_left _ hcell)))

/-! ## What a record is made of -/

/-- Records are made of the cells under some names, whatever else is in a row. -/
def ReadsOnly {ρ : Type} (names : List String) (build : Row → Except CoercionError ρ) : Prop :=
  ∀ row row' : Row, (∀ name ∈ names, row'.get? name = row.get? name) → build row' = build row

theorem readCell_congr {α : Type} (read : List Char → Option α) (reason : Reason)
    (h : row'.get? column = row.get? column) :
    readCell read reason row' column = readCell read reason row column := by
  rw [readCell, readCell, h]

theorem stringCell_congr (h : row'.get? column = row.get? column) :
    stringCell row' column = stringCell row column := by
  rw [stringCell, stringCell, h]

theorem valueCell_congr {c : Column} (h : row'.get? c.name = row.get? c.name) :
    valueCell c row' = valueCell c row := by
  obtain ⟨name, field, kind⟩ := c
  cases kind with
  | scalar s =>
    cases s with
    | string => simp only [valueCell, stringCell_congr h]
    | int | long | float | double | bool =>
      simp only [valueCell, intCell, longCell, floatCell, doubleCell, boolCell, readCell_congr _ _ h]
  | enumeration e => simp only [valueCell, literalCell, enumCell, readCell_congr _ _ h]

theorem recordFrom_congr : ∀ (columns : List Column) (found : Members),
    (∀ c ∈ columns, row'.get? c.name = row.get? c.name) →
      recordFrom row' found columns = recordFrom row found columns
  | [], _, _ => rfl
  | c :: columns, found, h => by
    rw [recordFrom, recordFrom, valueCell_congr (h c (List.mem_cons_self ..))]
    cases valueCell c row with
    | error e => rfl
    | ok v =>
      exact recordFrom_congr columns (insertMember c.name v found) fun c' hc' =>
        h c' (List.mem_cons_of_mem _ hc')

theorem readsOnly_dynamicRecord (s : TableSchema) :
    ReadsOnly (s.columns.map Column.name) (dynamicRecord s) := by
  intro row row' h
  exact recordFrom_congr s.columns [] fun c hc => h c.name (List.mem_map_of_mem hc)

/-! ## Binding -/

theorem bindRows_rearranged {ρ : Type} {build : Row → Except CoercionError ρ} (policy : Policy)
    (table : String) (hbuild : ReadsOnly names build) {rows rows' : List Row}
    (hnodup : ∀ row ∈ rows, (row.cells.map Prod.fst).Nodup)
    (h : List.Forall₂ (Rearranged names) rows rows') :
    bindRows policy table build rows' = bindRows policy table build rows := by
  induction h with
  | nil => rfl
  | @cons row row' rest rest' hrow _ ih =>
    have hsame : build row' = build row :=
      hbuild row row' fun name hname => hrow.get? (hnodup row (List.mem_cons_self ..)) hname
    rw [bindRows, bindRows, hsame, hrow.line, ih fun row hmem => hnodup row (List.mem_cons_of_mem _ hmem)]

end TypedTables.Binding

namespace TypedTables.Tables

open TypedTables.Binding TypedTables.Csv TypedTables.Schema

/-! ## Compiled tables -/

theorem readsOnly_ofRow_item : ReadsOnly (itemsSchema.columns.map Column.name) Item.ofRow := by
  intro row row' h
  have hid := h "ID" (by decide)
  have hname := h "Name" (by decide)
  have hkind := h "Kind" (by decide)
  simp only [Item.ofRow, intCell, enumCell, readCell_congr _ _ hid, stringCell_congr hname,
    readCell_congr _ _ hkind]

theorem readsOnly_ofRow_monster : ReadsOnly (monstersSchema.columns.map Column.name) Monster.ofRow := by
  intro row row' h
  have hid := h "ID" (by decide)
  have hname := h "Name" (by decide)
  have hhealth := h "Health" (by decide)
  have hspeed := h "Speed" (by decide)
  have hexperience := h "Experience" (by decide)
  have hboss := h "Boss" (by decide)
  have helement := h "Element" (by decide)
  simp only [Monster.ofRow, intCell, longCell, floatCell, doubleCell, boolCell, enumCell,
    stringCell_congr hname, readCell_congr _ _ hid, readCell_congr _ _ hhealth,
    readCell_congr _ _ hspeed, readCell_congr _ _ hexperience, readCell_congr _ _ hboss,
    readCell_congr _ _ helement]

/-- A compiled table binds rearranged rows alike when a record is made of the cells under the names. -/
theorem bind_rearranged_of_readsOnly {ρ : Type} [Record ρ] {names : List String} (policy : Policy)
    (hrecord : ReadsOnly names (Record.ofRow (ρ := ρ))) {rows rows' : List Row}
    (hnodup : ∀ row ∈ rows, (row.cells.map Prod.fst).Nodup)
    (h : List.Forall₂ (Rearranged names) rows rows') :
    Table.bind (ρ := ρ) policy rows' = Table.bind policy rows := by
  rw [Table.bind, Table.bind, bindRows_rearranged policy _ hrecord hnodup h]

/-- Binding does not depend on the places of the columns. Rows under one header, in which no name comes
twice, bind as any rows do that have their cells in another order and cells of further columns among
them, which no column of the schema names: with the same records and the same reports, or with the same
error. This holds for every schema, and for the tables of items and of monsters. -/
theorem bind_rearranged {header : List String} {rows rows' : List Row} (policy : Policy)
    (hheader : header.Nodup) (hrows : ∀ row ∈ rows, row.cells.map Prod.fst = header) :
    (∀ s : TableSchema, List.Forall₂ (Rearranged (s.columns.map Column.name)) rows rows' →
      bindSchema policy s rows' = bindSchema policy s rows) ∧
    (List.Forall₂ (Rearranged (itemsSchema.columns.map Column.name)) rows rows' →
      (Table.bind policy rows' : Except BindError (Items × List Rejection)) = Table.bind policy rows) ∧
    (List.Forall₂ (Rearranged (monstersSchema.columns.map Column.name)) rows rows' →
      (Table.bind policy rows' : Except BindError (Monsters × List Rejection)) =
        Table.bind policy rows) := by
  have hnodup : ∀ row ∈ rows, (row.cells.map Prod.fst).Nodup := fun row hrow => hrows row hrow ▸ hheader
  refine ⟨?_, ?_, ?_⟩
  · intro s h
    rw [bindSchema, bindSchema, bindRows_rearranged policy _ (readsOnly_dynamicRecord s) hnodup h]
  · exact bind_rearranged_of_readsOnly policy readsOnly_ofRow_item hnodup
  · exact bind_rearranged_of_readsOnly policy readsOnly_ofRow_monster hnodup

/-- Rows of items, of which the second has a bad key and a bad kind. -/
def itemRows : List Row :=
  [⟨3, [("ID", "1"), ("Name", "Sword"), ("Kind", "Weapon")]⟩,
    ⟨4, [("ID", "x"), ("Name", "Bow"), ("Kind", "Bow")]⟩]

/-- The same rows with the kind in front and a column of notes. -/
def notedRows : List Row :=
  [⟨3, [("Kind", "Weapon"), ("Note", "old"), ("ID", "1"), ("Name", "Sword")]⟩,
    ⟨4, [("Kind", "Bow"), ("Note", ""), ("ID", "x"), ("Name", "Bow")]⟩]

theorem rearranged_notedRows (names : List String) (h : "Note" ∉ names) :
    List.Forall₂ (Rearranged names) itemRows notedRows := by
  have hfurther (raw : String) : ∀ cell ∈ [("Note", raw)], cell.1 ∉ names := by simpa using h
  exact .cons ⟨rfl, _, by decide, hfurther "old"⟩ (.cons ⟨rfl, _, by decide, hfurther ""⟩ .nil)

/-- The key is reported in both orders, for it is the first column of the schema. -/
theorem bind_rearranged_notedRows :
    ["ID", "Name", "Kind"].Nodup ∧ (∀ row ∈ itemRows, row.cells.map Prod.fst = ["ID", "Name", "Kind"]) ∧
      bindSchema .skipInvalidRows itemsSchema notedRows =
        bindSchema .skipInvalidRows itemsSchema itemRows ∧
      (Table.bind .failFast notedRows : Except BindError (Items × List Rejection)) =
        .error ⟨"Items", 4, "ID", "x", .notAnInteger⟩ ∧
      (Table.bind .skipInvalidRows notedRows : Except BindError (Monsters × List Rejection)) =
        .ok (⟨[]⟩, [⟨3, "Health", "", .missingColumn⟩, ⟨4, "ID", "x", .notAnInteger⟩]) := by
  have hnodup : ["ID", "Name", "Kind"].Nodup := by decide
  have hrows : ∀ row ∈ itemRows, row.cells.map Prod.fst = ["ID", "Name", "Kind"] := by decide
  have hitems := rearranged_notedRows (itemsSchema.columns.map Column.name) (by decide)
  have hmonsters := rearranged_notedRows (monstersSchema.columns.map Column.name) (by decide)
  refine ⟨hnodup, hrows, (bind_rearranged _ hnodup hrows).1 itemsSchema hitems, ?_, ?_⟩
  · rw [(bind_rearranged _ hnodup hrows).2.1 hitems]
    rfl
  · rw [(bind_rearranged _ hnodup hrows).2.2 hmonsters]
    rfl

end TypedTables.Tables
