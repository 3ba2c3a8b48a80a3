/-
The registry module, which lists the compiled tables in order and gives each an accessor.
-/
import TypedTables.Schema.Basic
import TypedTables.Source.Lines
import TypedTables.Source.TableModule

namespace TypedTables.Source

open TypedTables.Schema TypedTables.Text

structure TableEntry where
  typeName : String
  moduleName : String
  deriving DecidableEq, Repr

def TableEntry.ofSchema (s : TableSchema) : TableEntry := ⟨s.tableName, s.moduleName⟩

def importLines (entries : List TableEntry) : List String :=
  if entries.isEmpty then
    [banner, blank, "use tablemaker_runtime::\x7bAssetStore, TableRegistry\x7d;", blank]
  else
    [banner, blank, "use std::sync::Arc;",
      "use tablemaker_runtime::\x7bAssetStore, RegistryLoadError, TableRegistry\x7d;", blank]

def moduleLines (entries : List TableEntry) : List String :=
  if entries.isEmpty then []
  else
    entries.map (fun e => "pub mod " ++ e.moduleName ++ ";") ++ [blank] ++
    entries.map (fun e => "pub use " ++ e.moduleName ++ "::" ++ e.typeName ++ ";") ++ [blank]

def nameLines (entries : List TableEntry) : List String :=
  ["/// Every compiled table, in compile order.",
    "pub const TABLE_NAMES: &[&str] = &[" ++ quotedList (entries.map TableEntry.typeName) ++ "];",
    blank]

def registryTypeLines : List String :=
  ["/// Typed access to every compiled table, each loaded once on first use.",
    "pub struct Tables<S: AssetStore> \x7b", line 1 "registry: TableRegistry<S>,", "\x7d", blank,
    "impl<S: AssetStore> Tables<S> \x7b", line 1 "pub fn new(store: S) -> Self \x7b",
    line 2 "Self \x7b", line 3 "registry: TableRegistry::new(store),", line 2 "\x7d",
    line 1 "\x7d", blank,
    line 1 "pub fn registry(&self) -> &TableRegistry<S> \x7b",
    line 2 "&self.registry", line 1 "\x7d"]

def accessorLines (e : TableEntry) : List String :=
  [blank,
    line 1 ("pub fn " ++ e.moduleName ++ "(&self) -> Result<Arc<" ++ e.typeName ++
      ">, RegistryLoadError> \x7b"),
    line 2 ("self.registry.table::<" ++ e.typeName ++ ">()"), line 1 "\x7d"]

def registryLines (entries : List TableEntry) : List String :=
  importLines entries ++ moduleLines entries ++ nameLines entries ++ registryTypeLines ++
  entries.flatMap accessorLines ++ ["\x7d"]

def registryModule (entries : List TableEntry) : String := unlines (registryLines entries)

end TypedTables.Source
