/-
Settings of a project: the folders of the tables, of the stored objects and of the generated source,
and whether binding stops at the first invalid row. They come from a YAML file, where every key may
be missing and none may be unknown or given twice, and from overrides, which win over the file.
-/
import TypedTables.Files.System
import TypedTables.Text.Blank
import TypedTables.Yaml.Mapping

namespace TypedTables

open TypedTables.Files TypedTables.Text TypedTables.Yaml

/-- The settings of a project. -/
structure Settings where
  csvFolder : String
  objectFolder : String
  sourceRoot : String
  failFast : Bool
  deriving DecidableEq, Repr

/-- Values that win over a settings file. A flag can ask for stopping, not for going on. -/
structure Overrides where
  csvFolder : Option String
  objectFolder : Option String
  sourceRoot : Option String
  failFast : Bool
  deriving DecidableEq, Repr

/-- Why there are no settings. -/
inductive SettingsError where
  | notFound (path : Path)
  | os (e : OsError)
  | yaml
  deriving DecidableEq, Repr

def SettingsError.message : SettingsError → String
  | .notFound path => "Config file not found: " ++ path.text
  | .os e => "IO error: " ++ e.message
  | .yaml => "YAML parsing error"

namespace Settings

/-- The settings of a project without a file. -/
def standard : Settings := ⟨"Tables", "Resources/Tables", "src", false⟩

/-- The settings file that is read when no other is named. -/
def standardFile : Path := ⟨"tablemaker.yaml"⟩

/-! ## Reading -/

/-- A truth value, which is written plainly, or as a literal block with the tag of truth values. -/
def flag? (s : Scalar) : Option Bool :=
  if s.style ≠ .plain ∧ ¬(s.style = .literal ∧ s.tag = some boolTag) then none
  else if ["true", "True", "TRUE"].contains s.text then some true
  else if ["false", "False", "FALSE"].contains s.text then some false
  else none

/-- The settings with the value of one key. -/
def set? (s : Settings) (key : String) (value : Scalar) : Option Settings :=
  match key with
  | "csv_folder" => some { s with csvFolder := value.text }
  | "object_folder" => some { s with objectFolder := value.text }
  | "source_root" => some { s with sourceRoot := value.text }
  | "fail_fast" => (flag? value).map fun b => { s with failFast := b }
  | _ => none

/-- The settings with the values of keys, each given once. -/
def setAll? (s : Settings) (seen : List String) : Pairs → Option Settings
  | [] => some s
  | (key, value) :: rest =>
    if seen.contains key.text then none
    else (s.set? key.text value).bind fun s => s.setAll? (key.text :: seen) rest

/-- The settings in the text of a file. -/
def ofYaml (text : String) : Except SettingsError Settings :=
  if isBlankText text then .ok standard
  else match (read? text).bind (standard.setAll? []) with
    | some s => .ok s
    | none => .error .yaml

/-- The settings in a file. -/
def ofFile (files : Folder) (p : Path) : Except SettingsError Settings :=
  match readText files p with
  | .error e => .error (.os e)
  | .ok text => ofYaml text

/-- The settings of a project: of the file that is named, else of the standard file if it is there,
else the standard ones. -/
def load (files : Folder) : Option Path → Except SettingsError Settings
  | some p => if isFile files p then ofFile files p else .error (.notFound p)
  | none => if isFile files standardFile then ofFile files standardFile else .ok standard

/-! ## Overrides -/

/-- The settings with overrides. -/
def override (s : Settings) (o : Overrides) : Settings where
  csvFolder := o.csvFolder.getD s.csvFolder
  objectFolder := o.objectFolder.getD s.objectFolder
  sourceRoot := o.sourceRoot.getD s.sourceRoot
  failFast := s.failFast || o.failFast

end Settings

end TypedTables
