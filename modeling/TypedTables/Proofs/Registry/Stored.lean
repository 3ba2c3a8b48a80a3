/-
What is stored is loaded. A dynamic table bound by a built schema without binary numbers, stored as
the only object of its name, is what the registry answers with when it is asked for that name. Main
statement: `get_stored`.
-/
import TypedTables.Project.Bind
import TypedTables.Proofs.Binding.Dynamic
import TypedTables.Proofs.Schema.Build
import TypedTables.Registry.Basic
import TypedTables.Store.Memory

namespace TypedTables.Registry

open TypedTables.Binding TypedTables.Csv TypedTables.Files TypedTables.Json TypedTables.Project
open TypedTables.Schema TypedTables.Store TypedTables.Text

/-! ## Loading -/

theorem load_object {loader : Loader} {name : String} {t : DynamicTable}
    (hobject : loader name = .ok [objectOf t])
    (hdecode : DynamicTable.decode (Utf8.ofText t.toValue.compact) = .ok t) :
    load loader name TableType.dynamic = .ok ⟨.dynamic, t⟩ := by
  have hread : DynamicTable.decode (Utf8.symbols (objectOf t)) = .ok t := by
    rw [objectOf, Utf8.symbols_encode, hdecode]
  have htyped : TableTypes.decode TableType.dynamic (objectOf t) = .ok t := hread
  simp only [load, hobject, htyped]

/-- A name without a slot is answered with what is loaded for it. -/
theorem get_of_load [TableTypes] {loader : Loader} {r : Registry} {name : String} {type : Ty}
    {table : AnyTable} (hslot : r.slot? name = none) (h : load loader name type = .ok table) :
    ∃ r', r.get loader name type = (.ok ⟨r.nextId, table⟩, r') := by
  simp only [get, hslot, Option.bind_none, h, afterLoad]
  exact ⟨_, rfl⟩

/-- In an empty store in memory an object is created, and is then all that is loaded. -/
theorem create_empty (name : String) (object : ByteArray) : ∃ m,
    memoryStore.create name object Memory.empty = (.ok (), m) ∧
      memoryStore.loadAll m name = .ok [object] := by
  refine ⟨Memory.empty.addCopy name object, rfl, ?_⟩
  have hobjects := Memory.objectsOf_addCopy Memory.empty name name object
  rw [if_pos rfl, Memory.objectsOf_empty, List.nil_append] at hobjects
  exact congrArg Except.ok hobjects

/-- A table bound by a schema without binary numbers and created under its name in an empty store is
what the registry loads for that name. Its records are those of the accepted rows in order, each with
one entry for each column and no other. -/
theorem get_stored {stem : String} {header types : List String} {source rows : List Row}
    {s : TableSchema} {policy : Policy} {t : DynamicTable} {rejected : List Rejection}
    (hbuild : build stem header types source = .ok s) (hexact : ∀ c ∈ s.columns, IsExact c)
    (hbind : bindSchema policy s rows = .ok (t, rejected)) :
    List.Forall₂ (RecordOf s.columns) (accepted (dynamicRecord s) rows) t.records ∧
      ∃ m i r, memoryStore.create s.tableName (objectOf t) Memory.empty = (.ok (), m) ∧
        Registry.empty.get (memoryStore.loadAll m) s.tableName TableType.dynamic = (.ok i, r) ∧
        i.table = ⟨.dynamic, t⟩ := by
  have hrecords : List.Forall₂ (RecordOf s.columns) (accepted (dynamicRecord s) rows) t.records :=
    (bindSchema_ok hbind).imp fun _ _ h => dynamicRecord_ok (build_nodup_names hbuild) h
  obtain ⟨m, hcreate, hload⟩ := create_empty s.tableName (objectOf t)
  obtain ⟨r, hget⟩ := get_of_load (r := Registry.empty) rfl (load_object hload (DynamicTable.decode_bound hexact hbind))
  exact ⟨hrecords, m, _, r, hcreate, hget, rfl⟩

def exactHeader : List String := ["ID", "Count", "Text", "Flag", "Kind"]

/-- The ends of both integer types, texts that need every escape, and a row that does not bind. -/
def exactRows : List Row :=
  [["-2147483648", "9223372036854775807", "\"\\/\x00\x1f\n\r\t\x08\x0c\x7f", "TRUE", "é\"\\"],
    ["2147483647", " -9223372036854775808 ", "", " false", "\u2028\x01"],
    ["2147483648", "0", "x", "true", "y"]].map (Row.ofCells 3 exactHeader)

theorem get_stored_exact : ∃ s t rejected,
    build "exact" exactHeader ["int", "long", "string", "bool", "enum"] exactRows = .ok s ∧
      (∀ c ∈ s.columns, IsExact c) ∧
      bindSchema .skipInvalidRows s exactRows = .ok (t, rejected) ∧
      t.records.length = 2 ∧ rejected.length = 1 ∧
      List.Forall₂ (RecordOf s.columns) (accepted (dynamicRecord s) exactRows) t.records ∧
      ∃ m i r, memoryStore.create s.tableName (objectOf t) Memory.empty = (.ok (), m) ∧
        Registry.empty.get (memoryStore.loadAll m) s.tableName TableType.dynamic = (.ok i, r) ∧
        i.table = ⟨.dynamic, t⟩ := by
  have hrun : ((build "exact" exactHeader ["int", "long", "string", "bool", "enum"]
      exactRows).toOption.any fun s => decide (∀ c ∈ s.columns, IsExact c) &&
        (bindSchema .skipInvalidRows s exactRows).toOption.any fun b =>
          b.1.records.length == 2 && b.2.length == 1) = true := by
    decide +kernel
  cases hbuild : build "exact" exactHeader ["int", "long", "string", "bool", "enum"] exactRows with
  | error e => rw [hbuild] at hrun; cases hrun
  | ok s =>
    rw [hbuild] at hrun
    simp only [Except.toOption, Option.any_some, Bool.and_eq_true, decide_eq_true_eq] at hrun
    obtain ⟨hexact, hbound⟩ := hrun
    cases hbind : bindSchema .skipInvalidRows s exactRows with
    | error e => rw [hbind] at hbound; cases hbound
    | ok b =>
      obtain ⟨t, rejected⟩ := b
      rw [hbind] at hbound
      simp only [Option.any_some, Bool.and_eq_true, beq_iff_eq] at hbound
      exact ⟨s, t, rejected, rfl, hexact, hbind, hbound.1, hbound.2, get_stored hbuild hexact hbind⟩

end TypedTables.Registry
