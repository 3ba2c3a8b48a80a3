/-
The pass that binds tables: it binds the data rows of every table file of a folder against the
manifest of its table and puts the bound table into a store in place of the objects of its name.
The schema is the compiled one, so a literal that the manifest does not have is not accepted.
-/
import TypedTables.Binding.Dynamic
import TypedTables.Project.Artifacts
import TypedTables.Project.Batch
import TypedTables.Store.Basic

namespace TypedTables.Project

open TypedTables.Binding TypedTables.Csv TypedTables.Files TypedTables.Json TypedTables.Schema
open TypedTables.Store TypedTables.Text

/-! ## Errors -/

/-- Why a table is not bound. -/
inductive BindTableError where
  | input (e : InputError)
  | notCompiled (table : String) (path : Path)
  | os (e : OsError)
  | manifest (fault : Fault)
  | bind (e : BindError)
  | store (e : StoreError)
  deriving DecidableEq, Repr

/-- The error in words; `words` has those for the fault of a manifest. -/
def BindTableError.describe (words : Fault → String) : BindTableError → String
  | .input e => e.message
  | .notCompiled table path =>
    "Table " ++ table ++ " has not been compiled (no manifest at " ++ path.text ++ ")"
  | .os e => e.message
  | .manifest fault => words fault
  | .bind e => e.message
  | .store e => e.message

/-- One text for every fault of a manifest. -/
def anyFault (_ : Fault) : String := "invalid manifest"

def BindTableError.message (e : BindTableError) : String := e.describe anyFault

/-! ## Manifests -/

/-- The schema in the manifest of a table. -/
def loadManifest (files : Folder) (root : Path) (names : TableNames) :
    Except BindTableError TableSchema :=
  let p := manifestPath root names.moduleName
  match readText files p with
  | .error .notFound => .error (.notCompiled names.typeName p)
  | .error e => .error (.os e)
  | .ok text =>
    match TableSchema.ofManifest text with
    | .error fault => .error (.manifest fault)
    | .ok s => .ok s

/-- The compiled schema of the table that a stem or a type name names. -/
def loadSchema (files : Folder) (root : Path) (table : String) :
    Except BindTableError TableSchema :=
  match TableNames.ofStem table with
  | .error fault => .error (.input (.schema (.tableName table fault)))
  | .ok names => loadManifest files root names

/-! ## Binding -/

/-- A table bound and stored: its name, the path of its file, how many records it has, the data rows
that did not bind and those left out for their width. -/
structure BoundTable where
  table : String
  source : Path
  records : Nat
  rejected : List Rejection
  malformed : List ShapeError
  deriving DecidableEq, Repr

/-- How many data rows are missing from the table. -/
def BoundTable.rejectedCount (t : BoundTable) : Nat := t.rejected.length + t.malformed.length

/-- A table bound and not stored yet: what is reported of it, and the object to store. -/
structure Prepared where
  report : BoundTable
  object : ByteArray

/-- The object of a table. -/
def objectOf (t : DynamicTable) : ByteArray := Utf8.encode t.toValue.compact

/-- Binds the rows of a file against the manifest of its table. -/
def prepare (files : Folder) (root : Path) (policy : Policy) (f : TableFile) (names : TableNames) :
    Except BindTableError Prepared :=
  match loadManifest files root names with
  | .error e => .error e
  | .ok s =>
    match f.table with
    | .error e => .error (.input (.read e))
    | .ok t =>
      match bindSchema policy s t.rows with
      | .error e => .error (.bind e)
      | .ok (bound, rejected) =>
        .ok ⟨⟨s.tableName, f.path, bound.records.length, rejected, t.rejected⟩, objectOf bound⟩

variable {σ : Type}

/-- Puts an object in place of those of its name. Whether there are any makes no difference, but a
store that cannot tell ends the replacement. -/
def replace (store : ObjectStore σ) (name : String) (object : ByteArray) :
    ExceptT StoreError (StateM σ) Unit := do
  let _ ← store.ask name
  store.delete name
  store.create name object

/-- Binds one file and stores its table; `view` gives the files of a state. -/
def bindFile (store : ObjectStore σ) (view : σ → Folder) (root : Path) (policy : Policy)
    (f : TableFile) (names : TableNames) (s : σ) : Except BindTableError BoundTable × σ :=
  match prepare (view s) root policy f names with
  | .error e => (.error e, s)
  | .ok p =>
    match replace store p.report.table p.object s with
    | (.error e, s) => (.error (.store e), s)
    | (.ok (), s) => (.ok p.report, s)

/-- What the pass did. -/
abbrev BindReport := Batch BoundTable BindTableError

/-- How many data rows are missing from the bound tables. -/
def rejectedRowCount (r : BindReport) : Nat :=
  r.done.foldl (fun n t => n + t.rejectedCount) 0

/-- Binds every table file below a folder against the manifests of a source root. -/
def bindTables (store : ObjectStore σ) (view : σ → Folder) (folder root : Path) (policy : Policy)
    (s : σ) : Except BindTableError BindReport × σ :=
  match discover (view s) folder with
  | .error e => (.error (.input (.read e)), s)
  | .ok found =>
    let (batch, s) := Batch.run .input (bindFile store view root policy) (claimAll [] found) s
    (.ok batch, s)

end TypedTables.Project
