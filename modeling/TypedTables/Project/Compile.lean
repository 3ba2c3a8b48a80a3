/-
The pass that compiles tables: it reads every table file of a folder, builds the schema of its table
and writes its module and manifest, and at the end the registry module of all tables that compiled.
-/
import TypedTables.Project.Artifacts
import TypedTables.Project.Batch

namespace TypedTables.Project

open TypedTables.Csv TypedTables.Files TypedTables.Schema TypedTables.Source

/-- Why a table does not compile. -/
inductive CompileError where
  | input (e : InputError)
  | os (e : OsError)
  deriving DecidableEq, Repr

def CompileError.message : CompileError → String
  | .input e => e.message
  | .os e => "IO error: " ++ e.message

/-- A compiled table: its schema, the paths of its file and of its module, and the data rows left
out for their width. -/
structure CompiledTable where
  schema : TableSchema
  source : Path
  module : Path
  rejected : List ShapeError
  deriving DecidableEq, Repr

/-- What the pass did, and the path of the registry module. -/
structure CompileReport where
  tables : Batch CompiledTable CompileError
  registry : Path
  deriving DecidableEq, Repr

/-- The table and the schema that a file makes. -/
def schemaOf (f : TableFile) : Except InputError (Table × TableSchema) :=
  match f.table with
  | .error e => .error (.read e)
  | .ok t =>
    match Schema.build f.name t.header t.types t.rows with
    | .error e => .error (.schema e)
    | .ok s => .ok (t, s)

/-- Compiles one file. -/
def compileFile (root : Path) (f : TableFile) (_ : TableNames) (files : Folder) :
    Except CompileError CompiledTable × Folder :=
  match schemaOf f with
  | .error e => (.error (.input e), files)
  | .ok (t, s) =>
    match writeTable root s files with
    | (.error e, files) => (.error (.os e), files)
    | (.ok path, files) => (.ok ⟨s, f.path, path, t.rejected⟩, files)

/-- The entries of the registry module for compiled tables. -/
def registryEntries (tables : List CompiledTable) : List TableEntry :=
  tables.map fun t => TableEntry.ofSchema t.schema

/-- Compiles every table file below a folder into a source root. -/
def compileTables (folder root : Path) (files : Folder) :
    Except CompileError CompileReport × Folder :=
  match discover files folder with
  | .error e => (.error (.input (.read e)), files)
  | .ok found =>
    let (batch, files) := Batch.run .input (compileFile root) (claimAll [] found) files
    match writeRegistry root (registryEntries batch.done) files with
    | (.error e, files) => (.error (.os e), files)
    | (.ok path, files) => (.ok ⟨batch, path⟩, files)

end TypedTables.Project
