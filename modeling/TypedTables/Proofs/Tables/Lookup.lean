/-
Look-ups in a table that is worked on. Binding rows and decoding an object replace its records, adding
a row and pushing a record put one behind them, and what fails changes nothing. So a table has the
records of the last replacement with those added since behind them (`Inserted`). A look-up by key finds
the first of them that has the key, and goes on finding it until the table is replaced. Main statement:
`lookups_find_first`.
-/
import Mathlib.Data.List.Induction
import TypedTables.Proofs.Binding.Policies
import TypedTables.Proofs.Tables.Compiled

namespace TypedTables.Tables

open TypedTables.Binding TypedTables.Csv TypedTables.Json

/-! ## Operations -/

/-- What is done to a table. -/
inductive Operation (ρ : Type) where
  | bind (policy : Policy) (rows : List Row)
  | addRow (row : Row)
  | push (r : ρ)
  | decode (s : Symbols)

/-- Why an operation fails. -/
inductive Failure where
  | rows (e : BindError)
  | row (e : CoercionError)
  | object (f : Fault)

section

variable {ρ : Type} [Record ρ]

/-- The table that an operation makes of a table. -/
def Operation.apply (t : Table ρ) : Operation ρ → Except Failure (Table ρ)
  | .bind policy rows => ((Table.bind policy rows).map Prod.fst).mapError .rows
  | .addRow row => (t.addRow row).mapError .row
  | .push r => .ok (t.add r)
  | .decode s => (Table.decode s).mapError .object

/-- The table after an operation, done or failed. -/
def Table.perform (t : Table ρ) (op : Operation ρ) : Table ρ :=
  match op.apply t with
  | .ok t' => t'
  | .error _ => t

/-- The table after a run of operations that starts with the empty table. -/
def tableAfter (ops : List (Operation ρ)) : Table ρ := ops.foldl Table.perform Table.empty

/-! ## Failures -/

/-- An operation that fails, whatever the table: an object that is none of a table, a row that makes no
record, or rows with such a row among them when the first one ends the binding. -/
inductive Operation.Fails : Operation ρ → Prop
  | bind {rows : List Row} {row : Row} {e : CoercionError} (hmem : row ∈ rows)
      (h : Record.ofRow (ρ := ρ) row = .error e) : Fails (.bind .failFast rows)
  | addRow {row : Row} {e : CoercionError} (h : Record.ofRow (ρ := ρ) row = .error e) :
      Fails (.addRow row)
  | decode {s : Symbols} {f : Fault} (h : Table.decode (ρ := ρ) s = .error f) : Fails (.decode s)

/-- Skipping invalid rows, a table is bound of any rows. -/
theorem exists_bind_skip (ρ : Type) [Record ρ] (rows : List Row) :
    ∃ b : Table ρ × List Rejection, Table.bind .skipInvalidRows rows = .ok b := by
  obtain ⟨b, hb⟩ := exists_bindRows_skip (Record.tableName ρ) (Record.ofRow (ρ := ρ)) rows
  exact ⟨_, by rw [bind_eq, hb]; rfl⟩

/-- Failing fast, a table is bound of rows that all make a record. -/
theorem bind_failFast_error_iff {rows : List Row} :
    (∃ e, Table.bind (ρ := ρ) .failFast rows = .error e) ↔
      ∃ row ∈ rows, ∃ e, Record.ofRow (ρ := ρ) row = .error e := by
  obtain ⟨b, hb⟩ := exists_bindRows_skip (Record.tableName ρ) (Record.ofRow (ρ := ρ)) rows
  have hreports := bindRows_rejected hb
  rw [bind_eq, bindRows_failFast hb]
  constructor
  · rintro ⟨e, h⟩
    obtain ⟨r, hr, -⟩ := Bound.unlessRejected_error_iff.1 (error_of_map_error h)
    obtain ⟨row, hrow, hreport⟩ :=
      exists_mem_of_forall₂ (List.Forall₂.flip hreports) (List.mem_of_mem_head? hr)
    exact ⟨row, List.mem_of_mem_filter hrow, _, hreport.error⟩
  · rintro ⟨row, hmem, e, hrow⟩
    have hrefused : row ∈ refused (Record.ofRow (ρ := ρ)) rows :=
      List.mem_filter.2 ⟨hmem, by rw [hrow]; rfl⟩
    obtain ⟨r, hr, -⟩ := exists_mem_of_forall₂ hreports hrefused
    obtain ⟨first, rest, hfirst⟩ := List.exists_cons_of_ne_nil (List.ne_nil_of_mem hr)
    exact ⟨_, by rw [Bound.unlessRejected, hfirst]; rfl⟩

theorem mapError_error_iff {ε ε' α : Type} {r : Except ε α} {f : ε → ε'} :
    (∃ e, r.mapError f = .error e) ↔ ∃ e, r = .error e := by
  cases r <;> simp [Except.mapError]

theorem map_error_iff {ε α β : Type} {r : Except ε α} {f : α → β} :
    (∃ e, r.map f = .error e) ↔ ∃ e, r = .error e := by
  cases r <;> simp [Except.map]

/-- Whether an operation fails does not depend on the table. -/
theorem apply_error_iff {t : Table ρ} {op : Operation ρ} :
    (∃ e, op.apply t = .error e) ↔ op.Fails := by
  cases op with
  | bind policy rows =>
    rw [Operation.apply, mapError_error_iff, map_error_iff]
    cases policy with
    | skipInvalidRows =>
      obtain ⟨b, hb⟩ := exists_bind_skip ρ rows
      rw [hb]
      exact ⟨nofun, nofun⟩
    | failFast =>
      rw [bind_failFast_error_iff]
      exact ⟨fun ⟨_, hmem, _, h⟩ => .bind hmem h, fun | .bind hmem h => ⟨_, hmem, _, h⟩⟩
  | addRow row =>
    rw [Operation.apply, mapError_error_iff, Table.addRow, map_error_iff]
    exact ⟨fun ⟨_, h⟩ => .addRow h, fun | .addRow h => ⟨_, h⟩⟩
  | push r => exact ⟨nofun, nofun⟩
  | decode s =>
    rw [Operation.apply, mapError_error_iff]
    exact ⟨fun ⟨_, h⟩ => .decode h, fun | .decode h => ⟨_, h⟩⟩

theorem perform_of_fails {op : Operation ρ} (h : op.Fails) (t : Table ρ) : t.perform op = t := by
  obtain ⟨e, he⟩ := (apply_error_iff (t := t)).2 h
  rw [Table.perform, he]

/-! ## Insertion order -/

/-- The records that an operation replaces those of the table by. -/
def Operation.replacement? : Operation ρ → Option (List ρ)
  | .bind policy rows => (Table.bind policy rows).toOption.map fun b => b.1.records
  | .decode s => (Table.decode s).toOption.map Table.records
  | _ => none

/-- The record of a row, if it makes one. -/
def recordOf? (ρ : Type) [Record ρ] (row : Row) : Option ρ := (Record.ofRow row).toOption

theorem recordOf?_eq_some_iff {row : Row} {r : ρ} :
    recordOf? ρ row = some r ↔ Record.ofRow row = .ok r := by
  rw [recordOf?]
  cases Record.ofRow (ρ := ρ) row <;> simp [Except.toOption]

/-- The record that an operation puts behind those of the table. -/
def Operation.addition? : Operation ρ → Option ρ
  | .addRow row => recordOf? ρ row
  | .push r => some r
  | _ => none

/-- The records that a run has inserted, in order: those of its last replacement, if it has one, and
behind them those added since. -/
inductive Inserted (ops : List (Operation ρ)) : List ρ → Prop
  | added (hkept : ∀ op ∈ ops, op.replacement? = none) :
      Inserted ops (ops.filterMap Operation.addition?)
  | replaced {before behind : List (Operation ρ)} {op : Operation ρ} {records : List ρ}
      (hops : ops = before ++ op :: behind) (hreplaced : op.replacement? = some records)
      (hkept : ∀ op ∈ behind, op.replacement? = none) :
      Inserted ops (records ++ behind.filterMap Operation.addition?)

theorem addition?_of_replacement? {op : Operation ρ} {records : List ρ}
    (h : op.replacement? = some records) : op.addition? = none := by
  cases op with
  | bind | decode => rfl
  | addRow | push => cases h

/-- A replacement takes the place of the records, and an addition comes behind them. -/
theorem records_perform (t : Table ρ) (op : Operation ρ) :
    (t.perform op).records = op.replacement?.getD t.records ++ op.addition?.toList := by
  unfold Table.perform
  cases op with
  | bind policy rows =>
    simp only [Operation.apply, Operation.replacement?, Operation.addition?, Option.toList_none,
      List.append_nil]
    cases Table.bind (ρ := ρ) policy rows <;> rfl
  | addRow row =>
    simp only [Operation.apply, Operation.replacement?, Operation.addition?, Option.getD_none,
      Table.addRow, recordOf?]
    cases Record.ofRow (ρ := ρ) row with
    | error e => exact (List.append_nil _).symm
    | ok r => rfl
  | push r => rfl
  | decode s =>
    simp only [Operation.apply, Operation.replacement?, Operation.addition?, Option.toList_none,
      List.append_nil]
    cases Table.decode (ρ := ρ) s <;> rfl

theorem records_of_perform {t : Table ρ} {op : Operation ρ} (h : op.replacement? = none) :
    (t.perform op).records = t.records ++ op.addition?.toList := by
  rw [records_perform, h, Option.getD_none]

theorem tableAfter_append (ops later : List (Operation ρ)) :
    tableAfter (ops ++ later) = later.foldl Table.perform (tableAfter ops) := by
  rw [tableAfter, List.foldl_append, ← tableAfter]

theorem tableAfter_concat (ops : List (Operation ρ)) (op : Operation ρ) :
    tableAfter (ops ++ [op]) = (tableAfter ops).perform op := by
  rw [tableAfter_append, List.foldl_cons, List.foldl_nil]

theorem filterMap_addition_singleton (op : Operation ρ) :
    [op].filterMap Operation.addition? = op.addition?.toList := by
  cases hadd : op.addition? <;> simp [hadd]

/-- Without a replacement the records stay where they are and additions come behind them. -/
theorem records_foldl_perform : ∀ (later : List (Operation ρ)) (t : Table ρ),
    (∀ op ∈ later, op.replacement? = none) →
      (later.foldl Table.perform t).records = t.records ++ later.filterMap Operation.addition?
  | [], t, _ => (List.append_nil _).symm
  | op :: later, t, h => by
    obtain ⟨hop, hlater⟩ := List.forall_mem_cons.1 h
    rw [List.foldl_cons, records_foldl_perform later _ hlater, records_of_perform hop, List.append_assoc,
      ← filterMap_addition_singleton, ← List.filterMap_append, List.singleton_append]

/-- An operation more. -/
theorem Inserted.concat {ops : List (Operation ρ)} {records : List ρ} (h : Inserted ops records)
    (op : Operation ρ) :
    Inserted (ops ++ [op]) (op.replacement?.getD records ++ op.addition?.toList) := by
  have hadditions (ops : List (Operation ρ)) : ops.filterMap Operation.addition? ++
      op.addition?.toList = (ops ++ [op]).filterMap Operation.addition? := by
    rw [List.filterMap_append, filterMap_addition_singleton]
  cases hop : op.replacement? with
  | some fresh =>
    rw [addition?_of_replacement? hop]
    exact .replaced rfl hop (by simp)
  | none =>
    have hkept_concat {ops : List (Operation ρ)} (h : ∀ op ∈ ops, op.replacement? = none) :
        ∀ op' ∈ ops ++ [op], op'.replacement? = none := by
      simpa [or_imp, forall_and, hop] using h
    cases h with
    | added hkept =>
      rw [Option.getD_none, hadditions]
      exact .added (hkept_concat hkept)
    | @replaced before behind last records hops hreplaced hkept =>
      rw [Option.getD_none, List.append_assoc, hadditions]
      exact .replaced (by rw [hops, List.append_assoc, List.cons_append]) hreplaced (hkept_concat hkept)

/-- A table has the records that its run has inserted, in their order. -/
theorem inserted_tableAfter (ops : List (Operation ρ)) : Inserted ops (tableAfter ops).records := by
  induction ops using List.reverseRecOn with
  | nil => exact .added (by simp)
  | append_singleton ops op ih =>
    rw [tableAfter_concat, records_perform]
    exact ih.concat op

/-! ## Look-ups -/

theorem get?_eq_some_iff {t : Table ρ} {id : Int} {r : ρ} : t.get? id = some r ↔
    ∃ before behind, t.records = before ++ r :: behind ∧ Record.key r = id ∧
      ∀ r' ∈ before, Record.key r' ≠ id := by
  rw [Table.get?, List.find?_eq_some_iff_append]
  simp only [beq_iff_eq, Bool.not_eq_true', beq_eq_false_iff_ne]
  constructor
  · rintro ⟨hkey, before, behind, hrecords, hbefore⟩
    exact ⟨before, behind, hrecords, hkey, hbefore⟩
  · rintro ⟨before, behind, hrecords, hkey, hbefore⟩
    exact ⟨hkey, before, behind, hrecords, hbefore⟩

theorem get?_eq_none_iff {t : Table ρ} {id : Int} :
    t.get? id = none ↔ ∀ r ∈ t.records, Record.key r ≠ id := by
  rw [Table.get?, List.find?_eq_none]
  simp only [beq_iff_eq, ne_eq]

/-- What is found is found as well when there is more behind it. -/
theorem get?_of_prefix {t t' : Table ρ} {id : Int} {r : ρ} (h : t.get? id = some r)
    (hfront : t.records <+: t'.records) : t'.get? id = some r := by
  obtain ⟨behind, hrecords⟩ := hfront
  rw [Table.get?] at h ⊢
  rw [← hrecords, List.find?_append, h, Option.some_or]

/-! ## Bound rows -/

/-- The key of a record is what its row has in the column of keys. -/
def KeyedByCell (ρ : Type) [Record ρ] : Prop :=
  ∀ (row : Row) (r : ρ), Record.ofRow row = .ok r → intCell row "ID" = .ok (Record.key r)

theorem filterMap_recordOf? {rows : List Row} {records : List ρ}
    (h : List.Forall₂ (fun row r => Record.ofRow row = .ok r) rows records) :
    rows.filterMap (recordOf? ρ) = records := by
  induction h with
  | nil => rfl
  | cons hrow _ ih => rw [List.filterMap_cons_some (recordOf?_eq_some_iff.2 hrow), ih]

theorem records_bind {policy : Policy} {rows : List Row} {t : Table ρ} {rejected : List Rejection}
    (h : Table.bind policy rows = .ok (t, rejected)) : t.records = rows.filterMap (recordOf? ρ) := by
  rw [bind_eq] at h
  obtain ⟨b, hb, heq⟩ := exists_of_map_ok h
  obtain ⟨rfl, -⟩ := Prod.mk.inj heq
  rw [← filterMap_recordOf? (bindRows_ok hb), accepted, List.filterMap_filter]
  -- a row that makes no record is passed over in any case
  refine List.filterMap_congr fun row _ => ?_
  rw [recordOf?]
  cases Record.ofRow (ρ := ρ) row <;> rfl

/-- In a table of bound rows a look-up finds the record of the first row that has the key and makes a
record. -/
theorem get?_bind_iff (hkeyed : KeyedByCell ρ) {policy : Policy} {rows : List Row} {t : Table ρ}
    {rejected : List Rejection} (h : Table.bind policy rows = .ok (t, rejected)) {id : Int} {r : ρ} :
    t.get? id = some r ↔ ∃ before row behind, rows = before ++ row :: behind ∧
      intCell row "ID" = .ok id ∧ Record.ofRow row = .ok r ∧
      ∀ row' ∈ before, intCell row' "ID" = .ok id → ∃ e, Record.ofRow (ρ := ρ) row' = .error e := by
  -- a row counts when it makes a record with the key
  have hcounts (row : Row) : ((recordOf? ρ row).any fun r => Record.key r == id) = true ↔
      intCell row "ID" = .ok id ∧ ∃ r : ρ, Record.ofRow row = .ok r := by
    rw [recordOf?]
    cases hrow : Record.ofRow (ρ := ρ) row with
    | error e => simp [Except.toOption]
    | ok r => simp [Except.toOption, hkeyed row r hrow]
  have hskips (row : Row) : (¬(intCell row "ID" = .ok id ∧ ∃ r : ρ, Record.ofRow row = .ok r)) ↔
      (intCell row "ID" = .ok id → ∃ e, Record.ofRow (ρ := ρ) row = .error e) := by
    cases Record.ofRow (ρ := ρ) row <;> simp
  rw [Table.get?, records_bind h, List.find?_filterMap, Option.bind_eq_some_iff]
  simp only [List.find?_eq_some_iff_append, hcounts, Bool.not_eq_true', ← Bool.not_eq_true, hskips,
    recordOf?_eq_some_iff]
  constructor
  · rintro ⟨row, ⟨⟨hid, -⟩, before, behind, hrows, hbefore⟩, hrow⟩
    exact ⟨before, row, behind, hrows, hid, hrow, hbefore⟩
  · rintro ⟨before, row, behind, hrows, hid, hrow, hbefore⟩
    exact ⟨row, ⟨⟨hid, r, hrow⟩, before, behind, hrows, hbefore⟩, hrow⟩

/-! ## Runs -/

/-- What look-ups find after a run. -/
structure FindsFirst (ops : List (Operation ρ)) : Prop where
  /-- The records stand in the order in which the run has inserted them. -/
  order : Inserted ops (tableAfter ops).records
  found : ∀ id r, (tableAfter ops).get? id = some r ↔
    ∃ before behind, (tableAfter ops).records = before ++ r :: behind ∧ Record.key r = id ∧
      ∀ r' ∈ before, Record.key r' ≠ id
  missing : ∀ id, (tableAfter ops).get? id = none ↔
    ∀ r ∈ (tableAfter ops).records, Record.key r ≠ id
  fails : ∀ op : Operation ρ, (∃ e, op.apply (tableAfter ops) = .error e) ↔ op.Fails
  /-- An operation that fails might as well not be there. -/
  failed : ∀ op : Operation ρ, op.Fails →
    ∀ later, tableAfter (ops ++ op :: later) = tableAfter (ops ++ later)
  /-- Behind a binding the first row that has the key and makes a record is found. -/
  bound : ∀ policy rows t rejected, Table.bind (ρ := ρ) policy rows = .ok (t, rejected) → ∀ id r,
    (tableAfter (ops ++ [.bind policy rows])).get? id = some r ↔
      ∃ before row behind, rows = before ++ row :: behind ∧ intCell row "ID" = .ok id ∧
        Record.ofRow row = .ok r ∧
        ∀ row' ∈ before, intCell row' "ID" = .ok id → ∃ e, Record.ofRow (ρ := ρ) row' = .error e
  /-- What is found is found until the table is replaced. -/
  kept : ∀ later, (∀ op ∈ later, op.replacement? = none) → ∀ id r,
    (tableAfter ops).get? id = some r → (tableAfter (ops ++ later)).get? id = some r

theorem findsFirst (hkeyed : KeyedByCell ρ) (ops : List (Operation ρ)) : FindsFirst ops where
  order := inserted_tableAfter ops
  found _ _ := get?_eq_some_iff
  missing _ := get?_eq_none_iff
  fails _ := apply_error_iff
  failed op h later := by
    rw [tableAfter_append, List.foldl_cons, perform_of_fails h, ← tableAfter_append]
  bound policy rows t rejected h id r := by
    have hbound : tableAfter (ops ++ [.bind policy rows]) = t := by
      rw [tableAfter_concat, Table.perform, Operation.apply, h]
      rfl
    rw [hbound, get?_bind_iff hkeyed h]
  kept later hlater id r h := by
    refine get?_of_prefix h ?_
    rw [tableAfter_append, records_foldl_perform later _ hlater]
    exact List.prefix_append _ _

end

/-- After any run of operations on a table of items or of monsters, a look-up finds the earliest record
inserted that has the key, and nothing exactly when none has it. An operation that fails leaves no
trace, a binding is looked up by the first accepted row with the key, and what is found stays found
whatever is added behind. -/
theorem lookups_find_first :
    (∀ ops : List (Operation Item), FindsFirst ops) ∧ ∀ ops : List (Operation Monster), FindsFirst ops :=
  ⟨findsFirst fun _ _ => Item.ofRow_id, findsFirst fun _ _ => Monster.ofRow_id⟩

/-- A row left out, an item with the key of the one before it, and two operations that fail. -/
example : (tableAfter [
    .bind .skipInvalidRows [⟨3, [("ID", "1"), ("Name", "Bow"), ("Kind", "Bow")]⟩,
      ⟨4, [("ID", "+1"), ("Name", "Sword"), ("Kind", "Weapon")]⟩],
    .push ⟨1, "Shield", .armor⟩, .bind .failFast [⟨5, []⟩], .decode []]).get? 1 =
      some (⟨1, "Sword", .weapon⟩ : Item) := by
  decide +kernel

end TypedTables.Tables
