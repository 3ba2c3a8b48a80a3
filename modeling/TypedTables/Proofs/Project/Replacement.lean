/-
Binding into a store in memory, one file after the other. A file that fails leaves the store as it
is; a file that is bound leaves its table as the one object of the table's name, in place of all that
were there, and touches no other name. Main statement: `bindTables_replaces`.

All that can fail comes before the first change of the store: taking out the objects of a name
succeeds and leaves the name free, so the object can be created.
-/
import TypedTables.Project.Bind
import TypedTables.Proofs.Binding.Dynamic
import TypedTables.Proofs.Files.System
import TypedTables.Proofs.Project.Batch
import TypedTables.Store.Memory

namespace TypedTables.Project

open TypedTables.Binding TypedTables.Csv TypedTables.Files TypedTables.Schema TypedTables.Store
open TypedTables.Text

/-! ## Outcomes -/

/-- What binding reports of a file with its claim, if the store takes what it is given. -/
def reported (files : Folder) (root : Path) (policy : Policy) (c : Claim) :
    Except BindTableError BoundTable :=
  match c.2 with
  | .error e => .error (.input e)
  | .ok names => (prepare files root policy c.1 names).map Prepared.report

/-- Why a file is not bound: its claim is refused, the manifest of the module claimed or the table in
the file cannot be read, or a row ends the binding. -/
inductive Unbound (files : Folder) (root : Path) (policy : Policy) (c : Claim) :
    BindTableError → Prop where
  | refused {e : InputError} (claim : c.2 = .error e) : Unbound files root policy c (.input e)
  | manifest {names : TableNames} {e : BindTableError} (claim : c.2 = .ok names)
      (manifest : loadManifest files root names = .error e) : Unbound files root policy c e
  | table {names : TableNames} {s : TableSchema} {e : ReadError} (claim : c.2 = .ok names)
      (manifest : loadManifest files root names = .ok s) (read : c.1.table = .error e) :
      Unbound files root policy c (.input (.read e))
  | row {names : TableNames} {s : TableSchema} {t : Table} {e : BindError} (claim : c.2 = .ok names)
      (manifest : loadManifest files root names = .ok s) (read : c.1.table = .ok t)
      (row : bindSchema policy s t.rows = .error e) : Unbound files root policy c (.bind e)

/-- A bound table comes from a granted claim, the schema in the manifest of the module claimed and the
rows of the file. -/
structure BoundFrom (files : Folder) (root : Path) (policy : Policy) (c : Claim) (names : TableNames)
    (s : TableSchema) (t : Table) (d : DynamicTable) (b : BoundTable) : Prop where
  claim : c.2 = .ok names
  manifest : loadManifest files root names = .ok s
  read : c.1.table = .ok t
  rows : bindSchema policy s t.rows = .ok (d, b.rejected)
  name : b.table = s.tableName
  source : b.source = c.1.path
  records : b.records = d.records.length
  malformed : b.malformed = t.rejected

variable {files : Folder} {root : Path} {policy : Policy} {c : Claim}

theorem prepare_error {f : TableFile} {names : TableNames} {e : BindTableError}
    (h : prepare files root policy f names = .error e) : Unbound files root policy (f, .ok names) e := by
  unfold prepare at h
  split at h
  · rename_i hs
    cases h
    exact .manifest rfl hs
  · rename_i s hs
    split at h
    · rename_i hread
      cases h
      exact .table rfl hs hread
    · rename_i t hread
      split at h
      · rename_i hrow
        cases h
        exact .row rfl hs hread hrow
      · cases h

theorem prepare_ok {f : TableFile} {names : TableNames} {p : Prepared}
    (h : prepare files root policy f names = .ok p) : ∃ s t d,
      BoundFrom files root policy (f, .ok names) names s t d p.report ∧
        p.object = Utf8.encode d.toValue.compact := by
  unfold prepare at h
  split at h
  · cases h
  · rename_i s hs
    split at h
    · cases h
    · rename_i t hread
      split at h
      · cases h
      · rename_i d rejected hrows
        cases h
        exact ⟨s, t, d, ⟨rfl, hs, hread, hrows, rfl, rfl, rfl, rfl⟩, rfl⟩

theorem reported_of_granted {names : TableNames} (h : c.2 = .ok names) :
    reported files root policy c = (prepare files root policy c.1 names).map Prepared.report := by
  unfold reported
  rw [h]

theorem Unbound.reported {e : BindTableError} (h : Unbound files root policy c e) :
    reported files root policy c = .error e := by
  cases h with
  | refused claim =>
    unfold Project.reported
    rw [claim]
  | manifest claim manifest =>
    rw [reported_of_granted claim]
    unfold prepare
    rw [manifest]
    rfl
  | table claim manifest read =>
    rw [reported_of_granted claim]
    unfold prepare
    rw [manifest, read]
    rfl
  | row claim manifest read row =>
    rw [reported_of_granted claim]
    unfold prepare
    rw [manifest, read]
    simp only [row]
    rfl

theorem BoundFrom.reported {names : TableNames} {s : TableSchema} {t : Table} {d : DynamicTable}
    {b : BoundTable} (h : BoundFrom files root policy c names s t d b) :
    reported files root policy c = .ok b := by
  obtain ⟨name, source, records, rejected, malformed⟩ := b
  obtain ⟨claim, manifest, read, rows, rfl, rfl, rfl, rfl⟩ := h
  rw [reported_of_granted claim]
  unfold prepare
  rw [manifest, read]
  simp only [rows]
  rfl

/-! ## One file -/

/-- A store that can tell whether there is an object goes on to replace it. -/
theorem replace_of_holds {σ : Type} {store : ObjectStore σ} {s : σ} {name : String} {there : Bool}
    (h : store.holds s name = .ok there) (object : ByteArray) :
    replace store name object s =
      (store.delete name >>= fun _ => store.create name object : ExceptT StoreError (StateM σ) Unit) s := by
  have hask : store.ask name s = (.ok there, s) := by rw [ObjectStore.ask, h]
  rw [replace, bind_of_ok hask]

theorem replace_memoryStore (name : String) (object : ByteArray) (m : Memory) :
    replace memoryStore name object m = (.ok (), (m.delete name).addCopy name object) := by
  have hfree : (m.delete name).contains name = false := by
    simp [Memory.contains, Memory.objectsOf_delete]
  have hcreate : (m.delete name).create name object = .ok ((m.delete name).addCopy name object) := by
    rw [Memory.create, hfree]; rfl
  have hdelete : memoryStore.delete name m = (.ok (), m.delete name) := rfl
  rw [replace_of_holds rfl, bind_of_ok hdelete]
  simp only [memoryStore, hcreate]

/-- What the binding of one file reports and does to the store: nothing if it fails, and otherwise it
leaves one object under the name of its schema's table. The object is the text of the table bound, from
which the table is read back if it has no binary numbers. -/
inductive StoreStep (files : Folder) (root : Path) (policy : Policy) (c : Claim) (m : Memory) :
    Except BindTableError BoundTable → Memory → Prop where
  | failed {e : BindTableError} (reason : Unbound files root policy c e) :
      StoreStep files root policy c m (.error e) m
  | bound {names : TableNames} {s : TableSchema} {t : Table} {d : DynamicTable} {b : BoundTable}
      {m' : Memory} (made : BoundFrom files root policy c names s t d b)
      (one : m'.objectsOf s.tableName = [Utf8.encode d.toValue.compact])
      (read : (∀ c ∈ s.columns, IsExact c) →
        DynamicTable.decode (Utf8.symbols (Utf8.encode d.toValue.compact)) = .ok d)
      (others : ∀ name, name ≠ s.tableName → m'.objectsOf name = m.objectsOf name) :
      StoreStep files root policy c m (.ok b) m'

theorem runFile_storeStep (files : Folder) (root : Path) (policy : Policy) (c : Claim) (m : Memory) :
    StoreStep files root policy c m
      (Batch.runFile .input (bindFile memoryStore (fun _ => files) root policy) c.1 c.2 m).1
      (Batch.runFile .input (bindFile memoryStore (fun _ => files) root policy) c.1 c.2 m).2 := by
  obtain ⟨f, claim⟩ := c
  cases claim with
  | error e => exact .failed (.refused rfl)
  | ok names =>
    simp only [Batch.runFile]
    unfold bindFile
    cases hp : prepare files root policy f names with
    | error e => exact .failed (prepare_error hp)
    | ok p =>
      obtain ⟨s, t, d, hmade, hobject⟩ := prepare_ok hp
      simp only [replace_memoryStore]
      refine .bound hmade ?_ ?_ ?_
      · simp [hmade.name, hobject, Memory.objectsOf_addCopy, Memory.objectsOf_delete]
      · intro hexact
        rw [Utf8.symbols_encode]
        exact DynamicTable.decode_bound hexact hmade.rows
      · intro name hname
        simp [hmade.name, hname, Memory.objectsOf_addCopy, Memory.objectsOf_delete]

/-! ## All files -/

/-- A pass over files with their claims: each is one step from the store that the one before left, and
the report has what came of each, in order. -/
inductive Replaces (files : Folder) (root : Path) (policy : Policy) :
    List Claim → Memory → BindReport → Memory → Prop where
  | nil (m : Memory) : Replaces files root policy [] m .empty m
  | cons {c : Claim} {claims : List Claim} {m m₁ m' : Memory}
      {outcome : Except BindTableError BoundTable} {report : BindReport}
      (step : StoreStep files root policy c m outcome m₁)
      (rest : Replaces files root policy claims m₁ report m') :
      Replaces files root policy (c :: claims) m (report.add c.1 outcome) m'

theorem bindRun_replaces (files : Folder) (root : Path) (policy : Policy) :
    ∀ (claims : List Claim) (m : Memory), Replaces files root policy claims m
      (Batch.run .input (bindFile memoryStore (fun _ => files) root policy) claims m).1
      (Batch.run .input (bindFile memoryStore (fun _ => files) root policy) claims m).2
  | [], m => .nil m
  | c :: rest, m => by
    have hstep := runFile_storeStep files root policy c m
    rw [Batch.run]
    exact .cons hstep (bindRun_replaces files root policy rest _)

namespace Replaces

variable {claims : List Claim} {m m' : Memory} {report : BindReport}

theorem report_eq (h : Replaces files root policy claims m report m') :
    report = .ofOutcomes (claims.map fun c => (c.1, reported files root policy c)) := by
  induction h with
  | nil m => rfl
  | @cons c claims _ _ _ outcome _ step _ ih =>
    have houtcome : outcome = reported files root policy c := by
      cases step with
      | failed reason => exact reason.reported.symm
      | bound made => exact made.reported.symm
    rw [List.map_cons, Batch.ofOutcomes, ← ih, houtcome]

/-- A pass changes nothing but the objects of the tables it binds. -/
theorem others (h : Replaces files root policy claims m report m') {name : String}
    (hname : ∀ b ∈ report.done, b.table ≠ name) : m'.objectsOf name = m.objectsOf name := by
  induction h with
  | nil m => rfl
  | cons step _ ih =>
    cases step with
    | failed => exact ih hname
    | bound made _ _ others =>
      obtain ⟨hb, hrest⟩ := List.forall_mem_cons.1 hname
      rw [ih hrest, others name (made.name ▸ Ne.symm hb)]

/-- Behind a pass there is one object of each table bound. -/
theorem one (h : Replaces files root policy claims m report m') {b : BoundTable}
    (hb : b ∈ report.done) : ∃ object, m'.objectsOf b.table = [object] := by
  induction h generalizing b with
  | nil m => cases hb
  | @cons _ _ _ _ _ _ later step rest ih =>
    cases step with
    | failed => exact ih hb
    | bound made one _ _ =>
      rcases List.mem_cons.1 hb with rfl | hb
      · -- a table of the same name later on has taken the place of this one
        by_cases hlater : ∃ b' ∈ later.done, b'.table = b.table
        · obtain ⟨b', hb', hname⟩ := hlater
          exact hname ▸ ih hb'
        · rw [rest.others fun b' hb' hname => hlater ⟨b', hb', hname⟩, made.name]
          exact ⟨_, one⟩
      · exact ih hb

end Replaces

/-- A pass that binds tables into a store in memory, whatever the files, the manifests and the store
are: without its folder it does nothing. With it each file takes one step, which leaves the store as
it is when the file fails, and else replaces what is stored under the name of its schema's table by
the text of the table bound. Paths are relative to the root of the tree: an absolute one leads to
nothing (`resolve`). -/
theorem bindTables_replaces (files : Folder) (folder root : Path) (policy : Policy) (m : Memory) :
    (∃ e, discover files folder = .error e ∧
      bindTables memoryStore (fun _ => files) folder root policy m = (.error (.input (.read e)), m)) ∨
    ∃ found report m', discover files folder = .ok found ∧
      bindTables memoryStore (fun _ => files) folder root policy m = (.ok report, m') ∧
      Replaces files root policy (claimAll [] found) m report m' := by
  cases hfound : discover files folder with
  | error e =>
    refine .inl ⟨e, rfl, ?_⟩
    rw [bindTables, hfound]
  | ok found =>
    refine .inr ⟨found, _, _, rfl, ?_, bindRun_replaces files root policy (claimAll [] found) m⟩
    rw [bindTables, hfound]

end TypedTables.Project
