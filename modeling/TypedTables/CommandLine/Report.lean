/-
Reports of the two passes in words, one line for each table, for each row left out and for each
failure, between the settings used and the totals.
-/
import TypedTables.Project.Bind
import TypedTables.Project.Compile
import TypedTables.Settings

namespace TypedTables.CommandLine

open TypedTables.Binding TypedTables.Csv TypedTables.Files TypedTables.Json TypedTables.Project

/-! ## Lines -/

def skippedLine (message : String) : String := "     skipped " ++ message

def failureLine {ε : Type} (describe : ε → String) (f : Failure ε) : String :=
  "  ❌ " ++ f.message describe

def compileHead (s : Settings) : List String :=
  ["Compiling tables", "CSV folder: " ++ s.csvFolder, "Source root: " ++ s.sourceRoot]

def compiledLines (t : CompiledTable) : List String :=
  ("  ✅ " ++ t.schema.tableName ++ " -> " ++ t.module.text) ::
    t.rejected.map fun e => skippedLine e.message

def compileLines (r : CompileReport) : List String :=
  r.tables.done.flatMap compiledLines ++
  r.tables.failures.map (failureLine CompileError.message) ++
  ["Compiled " ++ toString r.tables.done.length ++ " table(s), " ++
    toString r.tables.failures.length ++ " failed. Registry: " ++ r.registry.text]

def policyOf (s : Settings) : Policy := if s.failFast then .failFast else .skipInvalidRows

def bindHead (s : Settings) : List String :=
  ["Binding table data", "CSV folder: " ++ s.csvFolder, "Object folder: " ++ s.objectFolder,
    "Policy: " ++ (policyOf s).name]

/-- The lines of a bound table; `object` is the path of its object. -/
def boundLines (object : Path) (t : BoundTable) : List String :=
  ("  ✅ " ++ t.table ++ ": " ++ toString t.records ++ " record(s) -> " ++ object.text) ::
    (t.malformed.map (fun e => skippedLine e.message) ++
      t.rejected.map fun r => skippedLine r.message)

/-- The lines after binding; `objectPath` gives the path of the object of a table, and `words` what is
wrong with a manifest. -/
def bindLines (words : Fault → String) (objectPath : String → Path) (r : BindReport) : List String :=
  r.done.flatMap (fun t => boundLines (objectPath t.table) t) ++
  r.failures.map (failureLine (BindTableError.describe words)) ++
  ["Bound " ++ toString r.done.length ++ " table(s), " ++ toString r.failures.length ++
    " failed, " ++ toString (rejectedRowCount r) ++ " row(s) rejected"]

end TypedTables.CommandLine
