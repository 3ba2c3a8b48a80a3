/-
Manifests: a schema as JSON text, written when a table is compiled and read back when its data is
bound. The text is indented and ends with a line feed.
-/
import TypedTables.Json.Printer
import TypedTables.Json.Reader
import TypedTables.Schema.Basic

namespace TypedTables.Schema

open TypedTables.Json TypedTables.Text

/-! ## Writing -/

def Literal.toValue (l : Literal) : Value :=
  .object [("text", .string l.text), ("variant", .string l.variant)]

def EnumType.toValue (e : EnumType) : Value :=
  .object [("type_name", .string e.typeName), ("literals", .array (e.literals.map Literal.toValue))]

def ColumnKind.toValue : ColumnKind → Value
  | .scalar s => .object [("scalar", .string s.token)]
  | .enumeration e => .object [("enum", e.toValue)]

def Column.toValue (c : Column) : Value :=
  .object [("name", .string c.name), ("field_name", .string c.field), ("kind", c.kind.toValue)]

def TableSchema.toValue (s : TableSchema) : Value :=
  .object [("table_name", .string s.tableName), ("module_name", .string s.moduleName),
    ("record_name", .string s.recordName), ("columns", .array (s.columns.map Column.toValue)),
    ("has_id_column", .bool s.hasIdColumn)]

/-- The text of a schema's manifest. -/
def TableSchema.manifest (s : TableSchema) : String :=
  String.ofList (s.toValue.prettyChars 0 ++ ['\n'])

/-! ## Reading -/

def Scalar.all : List Scalar := [.int, .long, .float, .double, .string, .bool]

def Scalar.shape : Shape := .choice (Scalar.all.map fun s => (s.token, none))

def Literal.shape : Shape := .record [("text", .string), ("variant", .string)]

def EnumType.shape : Shape := .record [("type_name", .string), ("literals", .list Literal.shape)]

def ColumnKind.shape : Shape :=
  .choice [("scalar", some Scalar.shape), ("enum", some EnumType.shape)]

def Column.shape : Shape :=
  .record [("name", .string), ("field_name", .string), ("kind", ColumnKind.shape)]

def TableSchema.shape : Shape :=
  .record [("table_name", .string), ("module_name", .string), ("record_name", .string),
    ("columns", .list Column.shape), ("has_id_column", .bool)]

def Scalar.ofValue? : Value → Option Scalar
  | .string token => Scalar.all.find? fun s => s.token == token
  | _ => none

def Literal.ofValue? : Value → Option Literal
  | .object [(_, .string text), (_, .string variant)] => some ⟨text, variant⟩
  | _ => none

def EnumType.ofValue? : Value → Option EnumType
  | .object [(_, .string typeName), (_, .array literals)] => do
    return ⟨typeName, ← literals.mapM Literal.ofValue?⟩
  | _ => none

def ColumnKind.ofValue? : Value → Option ColumnKind
  | .object [(variant, content)] =>
    if variant = "scalar" then (Scalar.ofValue? content).map .scalar
    else (EnumType.ofValue? content).map .enumeration
  | _ => none

def Column.ofValue? : Value → Option Column
  | .object [(_, .string name), (_, .string field), (_, kind)] =>
    (ColumnKind.ofValue? kind).map fun k => ⟨name, field, k⟩
  | _ => none

/-- The schema of a value that has the shape of a manifest. -/
def TableSchema.ofValue? : Value → Option TableSchema
  | .object [(_, .string table), (_, .string module), (_, .string record), (_, .array columns),
      (_, .bool hasId)] => do
    return ⟨table, module, record, ← columns.mapM Column.ofValue?, hasId⟩
  | _ => none

/-- What a reading that must have succeeded yields. -/
def orMismatch {α : Type} : Option α → Except Fault α
  | some a => .ok a
  | none => .error .mismatch

def Column.decode (s : Symbols) : Except Fault Column := do
  orMismatch (Column.ofValue? (← Json.decode Column.shape s))

def TableSchema.decode (s : Symbols) : Except Fault TableSchema := do
  orMismatch (TableSchema.ofValue? (← Json.decode TableSchema.shape s))

/-- Reads the text of a manifest. -/
def TableSchema.ofManifest (text : String) : Except Fault TableSchema :=
  TableSchema.decode (Utf8.ofText text)

end TypedTables.Schema
