/-
The files that compiling writes below a source root: `tables.rs` is the registry module, and the
folder `tables` has a module and a manifest for each table. Files that are there are written over,
and files of tables that are no longer compiled stay.
-/
import TypedTables.Files.System
import TypedTables.Schema.Manifest
import TypedTables.Source.RegistryModule
import TypedTables.Source.TableModule
import TypedTables.Text.Utf8

namespace TypedTables.Project

open TypedTables.Files TypedTables.Schema TypedTables.Source TypedTables.Text

/-! ## Paths -/

/-- The folder of the modules and manifests. -/
def tablesFolder (root : Path) : Path := root.join "tables"

/-- The path of a table's module. -/
def modulePath (root : Path) (module : String) : Path := (tablesFolder root).join (module ++ ".rs")

/-- The path of a table's manifest. -/
def manifestPath (root : Path) (module : String) : Path :=
  (tablesFolder root).join (module ++ ".schema.json")

/-- The path of the registry module. -/
def registryPath (root : Path) : Path := root.join "tables.rs"

/-! ## Writing -/

/-- Writes a text over a file. -/
def writeText (p : Path) (text : String) : FileM Unit := writeFile p (Utf8.encode text)

/-- Writes the module and the manifest of a table; yields the path of the module. -/
def writeTable (root : Path) (s : TableSchema) : FileM Path := do
  makeFolders (tablesFolder root)
  writeText (modulePath root s.moduleName) (tableModule s)
  writeText (manifestPath root s.moduleName) s.manifest
  return modulePath root s.moduleName

/-- Writes the registry module; yields its path. -/
def writeRegistry (root : Path) (entries : List TableEntry) : FileM Path := do
  makeFolders root
  writeText (registryPath root) (registryModule entries)
  return registryPath root

end TypedTables.Project
