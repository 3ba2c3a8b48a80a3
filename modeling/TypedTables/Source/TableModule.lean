/-
The module generated for one table: the table type, its record type, a type for each enum column,
the look-up by key, and how a record is made from a row. The text depends on the schema alone.
-/
import TypedTables.Schema.Basic
import TypedTables.Source.Lines
import TypedTables.Text.Quoted

namespace TypedTables.Source

open TypedTables.Schema TypedTables.Text

/-- The function that coerces a cell of a column. -/
def coerceFunction : ColumnKind → String
  | .scalar .int => "int"
  | .scalar .long => "long"
  | .scalar .float => "float"
  | .scalar .double => "double"
  | .scalar .string => "string"
  | .scalar .bool => "boolean"
  | .enumeration _ => "enumeration"

/-- The name under which a column or literal is stored. -/
def renamed (text : String) : String := "#[serde(rename = " ++ quoted text ++ ")]"

/-! ## Parts -/

def headLines (s : TableSchema) : List String :=
  [banner, "// Table: " ++ s.tableName, blank, "use serde::\x7bDeserialize, Serialize\x7d;",
    if s.enumColumns.isEmpty then
      "use tablemaker_runtime::\x7bcoerce, FromRow, RowValue, Table, TypeCoercionError\x7d;"
    else
      "use tablemaker_runtime::\x7bcoerce, FromRow, RowValue, Table, TableEnum, TypeCoercionError\x7d;",
    blank]

def tableTypeLines (s : TableSchema) : List String :=
  ["#[derive(Debug, Clone, Default, PartialEq, Serialize, Deserialize)]",
    "pub struct " ++ s.tableName ++ " \x7b",
    line 1 ("pub records: Vec<" ++ s.recordName ++ ">,"), "\x7d", blank]

def fieldLines (c : Column) : List String :=
  [line 1 (renamed c.name), line 1 ("pub " ++ c.field ++ ": " ++ c.fieldType ++ ",")]

def recordTypeLines (s : TableSchema) : List String :=
  ["#[derive(Debug, Clone, PartialEq, Serialize, Deserialize)]",
    "pub struct " ++ s.recordName ++ " \x7b"] ++
  s.columns.flatMap fieldLines ++ ["\x7d", blank]

def variantLines (l : Literal) : List String :=
  [line 1 (renamed l.text), line 1 (l.variant ++ ",")]

def enumTypeLines (e : EnumType) : List String :=
  ["#[derive(Debug, Clone, Copy, PartialEq, Eq, Hash, Serialize, Deserialize)]"] ++
  (if e.isUninhabited then ["pub enum " ++ e.typeName ++ " \x7b\x7d"]
    else ["pub enum " ++ e.typeName ++ " \x7b"] ++ e.literals.flatMap variantLines ++ ["\x7d"]) ++
  [blank]

def matchLine (l : Literal) : String :=
  line 3 (quoted l.text ++ " => Some(Self::" ++ l.variant ++ "),")

def fromLiteralLines (e : EnumType) : List String :=
  if e.isUninhabited then
    [line 1 "fn from_literal(_literal: &str) -> Option<Self> \x7b", line 2 "None", line 1 "\x7d"]
  else
    [line 1 "fn from_literal(literal: &str) -> Option<Self> \x7b", line 2 "match literal \x7b"] ++
    e.literals.map matchLine ++ [line 3 "_ => None,", line 2 "\x7d", line 1 "\x7d"]

def quotedList (texts : List String) : String := ", ".intercalate (texts.map quoted)

def enumImplLines (e : EnumType) : List String :=
  ["impl TableEnum for " ++ e.typeName ++ " \x7b",
    line 1 ("const LITERALS: &'static [&'static str] = &[" ++ quotedList e.texts ++ "];"),
    blank] ++
  fromLiteralLines e ++ ["\x7d", blank]

def enumLines (e : EnumType) : List String := enumTypeLines e ++ enumImplLines e

def getLines (s : TableSchema) : List String :=
  match s.idColumn? with
  | some id =>
    [line 1 ("/// First record whose `" ++ id.name ++ "` equals `id`."),
      line 1 ("pub fn get(&self, id: " ++ id.fieldType ++ ") -> Option<&" ++ s.recordName ++
        "> \x7b"),
      line 2 ("self.records.iter().find(|record| record." ++ id.field ++ " == id)"),
      line 1 "\x7d"]
  | none =>
    [line 1 "/// Always `None`: this table has no integer `ID` column.",
      line 1 ("pub fn get(&self, _id: i32) -> Option<&" ++ s.recordName ++ "> \x7b"),
      line 2 "None", line 1 "\x7d"]

def tableMethodLines (s : TableSchema) : List String :=
  ["impl " ++ s.tableName ++ " \x7b"] ++ getLines s ++
  [blank, line 1 ("pub fn add_record(&mut self, record: " ++ s.recordName ++ ") \x7b"),
    line 2 "self.records.push(record);", line 1 "\x7d", "\x7d", blank]

def coerceLine (c : Column) : String :=
  line 3 (c.field ++ ": coerce::" ++ coerceFunction c.kind ++ "(row, " ++ quoted c.name ++ ")?,")

def fromRowLines (s : TableSchema) : List String :=
  ["impl FromRow for " ++ s.recordName ++ " \x7b",
    line 1 "fn from_row(row: &RowValue) -> Result<Self, TypeCoercionError> \x7b",
    line 2 "Ok(Self \x7b"] ++
  s.columns.map coerceLine ++ [line 2 "\x7d)", line 1 "\x7d", "\x7d", blank]

def tableImplLines (s : TableSchema) : List String :=
  ["impl Table for " ++ s.tableName ++ " \x7b",
    line 1 ("const NAME: &'static str = " ++ quoted s.tableName ++ ";"),
    line 1 ("type Record = " ++ s.recordName ++ ";"), blank,
    line 1 ("fn records(&self) -> &[" ++ s.recordName ++ "] \x7b"), line 2 "&self.records",
    line 1 "\x7d", blank,
    line 1 ("fn push_record(&mut self, record: " ++ s.recordName ++ ") \x7b"),
    line 2 "self.add_record(record);", line 1 "\x7d", "\x7d"]

/-! ## Whole module -/

def tableLines (s : TableSchema) : List String :=
  headLines s ++ tableTypeLines s ++ recordTypeLines s ++
  s.enumColumns.flatMap (fun c => enumLines c.2) ++
  tableMethodLines s ++ fromRowLines s ++ tableImplLines s

def tableModule (s : TableSchema) : String := unlines (tableLines s)

end TypedTables.Source
