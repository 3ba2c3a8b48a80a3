/-
Schemas of tables: the declared types of the type row, the columns with the names that the
generated code uses for them, and the closed set of literals behind an enum column.
-/
import TypedTables.Text.Blank

namespace TypedTables.Schema

open TypedTables.Text

/-! ## Declared types -/

/-- The scalar types of a column. -/
inductive Scalar where
  | int
  | long
  | float
  | double
  | string
  | bool
  deriving DecidableEq, Repr

/-- The token that stands for the type in the type row. -/
def Scalar.token : Scalar → String
  | .int => "int"
  | .long => "long"
  | .float => "float"
  | .double => "double"
  | .string => "string"
  | .bool => "bool"

/-- The type of the generated field. -/
def Scalar.fieldType : Scalar → String
  | .int => "i32"
  | .long => "i64"
  | .float => "f32"
  | .double => "f64"
  | .string => "String"
  | .bool => "bool"

/-- The two integer types. -/
def Scalar.isInteger : Scalar → Bool
  | .int | .long => true
  | _ => false

/-- What the type row declares for a column: a scalar type or an enum. -/
inductive Declared where
  | scalar (s : Scalar)
  | enumeration
  deriving DecidableEq, Repr

/-- The token in its usual spelling. -/
def Declared.token : Declared → String
  | .scalar s => s.token
  | .enumeration => "enum"

/-- The meaning of a token written in lower case with no blanks around it. -/
def Declared.ofToken? : String → Option Declared
  | "int" | "integer" => some (.scalar .int)
  | "long" => some (.scalar .long)
  | "float" => some (.scalar .float)
  | "double" => some (.scalar .double)
  | "string" => some (.scalar .string)
  | "bool" | "boolean" => some (.scalar .bool)
  | "enum" => some .enumeration
  | _ => none

/-- The meaning of a cell of the type row; case and the blanks around it do not matter. -/
def Declared.parse? (cell : String) : Option Declared := ofToken? ((trim cell).map Char.toLower)

/-! ## Columns -/

/-- One value of an enum column: the text of its cells and the name of its variant. -/
structure Literal where
  text : String
  variant : String
  deriving DecidableEq, Repr

/-- The values of an enum column in order of first appearance. -/
structure EnumType where
  typeName : String
  literals : List Literal
  deriving DecidableEq, Repr

namespace EnumType

/-- The texts of the literals, in order. -/
def texts (e : EnumType) : List String := e.literals.map Literal.text

def contains (e : EnumType) (text : String) : Bool := e.literals.any fun l => l.text == text

/-- An enum without literals has no value; it is a valid type all the same. -/
def isUninhabited (e : EnumType) : Bool := e.literals.isEmpty

end EnumType

/-- What a column holds. -/
inductive ColumnKind where
  | scalar (s : Scalar)
  | enumeration (e : EnumType)
  deriving DecidableEq, Repr

/-- A column: its name in the header, the name of the generated field and what it holds. -/
structure Column where
  name : String
  field : String
  kind : ColumnKind
  deriving DecidableEq, Repr

namespace Column

/-- The declared type of the column. -/
def declared (c : Column) : Declared :=
  match c.kind with
  | .scalar s => .scalar s
  | .enumeration _ => .enumeration

/-- The enum behind the column, if it is one. -/
def enum? (c : Column) : Option EnumType :=
  match c.kind with
  | .scalar _ => none
  | .enumeration e => some e

/-- The type of the generated field. -/
def fieldType (c : Column) : String :=
  match c.kind with
  | .scalar s => s.fieldType
  | .enumeration e => e.typeName

end Column

/-! ## Tables -/

/-- The name of the key column. -/
def idColumn : String := "ID"

/-- The schema of one table: the names of its type, its module and its record type, the columns in
header order, and whether an integer column has the name of the key. -/
structure TableSchema where
  tableName : String
  moduleName : String
  recordName : String
  columns : List Column
  hasIdColumn : Bool
  deriving DecidableEq, Repr

namespace TableSchema

/-- The first column of a name. -/
def column? (s : TableSchema) (name : String) : Option Column :=
  s.columns.find? fun c => c.name == name

/-- The key column, if the schema has one. -/
def idColumn? (s : TableSchema) : Option Column :=
  if s.hasIdColumn then s.column? idColumn else none

/-- The enum columns with their enums, in order. -/
def enumColumns (s : TableSchema) : List (Column × EnumType) :=
  s.columns.filterMap fun c => c.enum?.map fun e => (c, e)

end TableSchema

end TypedTables.Schema
