/-
Claims of table names. The files of a pass claim the type name and the module name of their tables
in order, by their file names alone, so the first file owns a name even when it fails later. A file
whose type or module name is owned is refused.
-/
import TypedTables.Project.TableFile
import TypedTables.Schema.Builder

namespace TypedTables.Project

open TypedTables.Files TypedTables.Schema

/-- What is wrong with a table file: it cannot be read, makes no schema, or has a taken name. -/
inductive InputError where
  | read (e : ReadError)
  | schema (e : SchemaError)
  | duplicate (table : String) (first second : Path)
  deriving DecidableEq, Repr

/-- Says that two files define one table. -/
def duplicateMessage (table : String) (first second : Path) : String :=
  "Table " ++ table ++ " is defined by both " ++ first.text ++ " and " ++ second.text

def InputError.message : InputError → String
  | .read e => e.message
  | .schema e => e.message
  | .duplicate table first second => duplicateMessage table first second

/-- The paths of the files that own names. -/
abbrev Owners := List (String × Path)

/-- The file that owns a name. -/
def Owners.owner? (owners : Owners) (name : String) : Option Path :=
  (owners.find? fun o => o.1 == name).map Prod.snd

/-- What one file claims while names are owned already. -/
def claimNames (owners : Owners) (f : TableFile) : Except InputError TableNames :=
  match TableNames.ofStem f.name with
  | .error fault => .error (.schema (.tableName f.name fault))
  | .ok names =>
    match (owners.owner? names.typeName).or (owners.owner? names.moduleName) with
    | some first => .error (.duplicate names.typeName first f.path)
    | none => .ok names

/-- The owners after the claim of a file. -/
def Owners.add (owners : Owners) (f : TableFile) : Except InputError TableNames → Owners
  | .ok names => (names.typeName, f.path) :: (names.moduleName, f.path) :: owners
  | .error _ => owners

/-- Files with their claims, made in order. -/
def claimAll (owners : Owners) : List TableFile → List (TableFile × Except InputError TableNames)
  | [] => []
  | f :: rest =>
    let claim := claimNames owners f
    (f, claim) :: claimAll (owners.add f claim) rest

end TypedTables.Project
