/-
Building the schema of a table from its header, its type row and its data rows. Field names, enum
type names and variants are claimed in column order and row order, so that no two of one kind are
equal and nothing that comes later renames what came before. The literals of an enum column are the
texts of its cells, trimmed, without the empty ones, each where it first appears.
-/
import TypedTables.Csv.Row
import TypedTables.Naming.Unique
import TypedTables.Schema.Basic
import TypedTables.Schema.TableNames

namespace TypedTables.Schema

open TypedTables.Text TypedTables.Naming TypedTables.Csv

/-! ## Errors -/

/-- Why a column name is refused. -/
inductive ColumnFault where
  | issue (i : Issue)
  | duplicate
  deriving DecidableEq, Repr

/-- The reason in words. -/
def ColumnFault.reason : ColumnFault → String
  | .issue i => i.message
  | .duplicate => "duplicate column name"

/-- Why no schema can be built. -/
inductive SchemaError where
  | columnName (column : String) (fault : ColumnFault)
  | typeToken (column token : String)
  | tableName (stem : String) (fault : NameFault)
  | columnCount (header types : Nat)
  deriving DecidableEq, Repr

def SchemaError.message : SchemaError → String
  | .columnName column fault => "Invalid column name '" ++ column ++ "': " ++ fault.reason
  | .typeToken column token =>
    "Unknown type token '" ++ token ++ "' for column '" ++ column ++ "'"
  | .tableName stem fault => "Invalid table name '" ++ stem ++ "': " ++ fault.reason
  | .columnCount header types =>
    "Header has " ++ toString header ++ " columns but type row has " ++ toString types

/-! ## Literals -/

/-- The texts that the cells of a column show, trimmed and without the empty ones. -/
def columnTexts (index : Nat) (rows : List Row) : List String :=
  (rows.filterMap fun row => (row.valueAt? index).map trim).filter fun text => !text.isEmpty

/-- The literals for texts in order: a text seen before adds nothing, a new one claims a variant.
`seen` and `taken` hold the texts and the variants so far. -/
def literalsFrom (seen taken : List String) : List String → List Literal
  | [] => []
  | text :: rest =>
    if seen.contains text then literalsFrom seen taken rest
    else
      let (variant, taken') := claim (typeName text "Literal") "" taken
      ⟨text, variant⟩ :: literalsFrom (text :: seen) taken' rest

/-- The literals of the column at a position. -/
def literals (index : Nat) (rows : List Row) : List Literal :=
  literalsFrom [] [] (columnTexts index rows)

/-! ## Columns -/

/-- The first fault among the column names; `seen` holds the names before them. -/
def headerFault? (seen : List String) : List String → Option (String × ColumnFault)
  | [] => none
  | name :: rest =>
    match issue? name with
    | some i => some (name, .issue i)
    | none =>
      if seen.contains name then some (name, .duplicate) else headerFault? (name :: seen) rest

/-- The type name of an enum column, and the type names taken after it: named for the column if
that is free, else for the table and the column. -/
def claimEnumType (table column : String) (taken : List String) : String × List String :=
  let base := typeName column "Column"
  if taken.contains base then claim (table ++ base) "" taken else (base, base :: taken)

/-- The columns from position `index` on. `fields` and `types` hold the field names and the type
names taken so far. -/
def columnsFrom (table : String) (rows : List Row) (index : Nat) (fields types : List String) :
    List (String × String) → Except SchemaError (List Column)
  | [] => .ok []
  | (name, token) :: rest =>
    match Declared.parse? token with
    | none => .error (.typeToken name token)
    | some declared =>
      let (field, fields') := claim (fieldName name) "_" fields
      match declared with
      | .scalar s => do
        let columns ← columnsFrom table rows (index + 1) fields' types rest
        return ⟨name, field, .scalar s⟩ :: columns
      | .enumeration => do
        let (type, types') := claimEnumType table name types
        let columns ← columnsFrom table rows (index + 1) fields' types' rest
        return ⟨name, field, .enumeration ⟨type, literals index rows⟩⟩ :: columns

/-- The key column is an integer column with the name of the key. -/
def Column.isKey (c : Column) : Bool :=
  c.name == idColumn && match c.kind with
    | .scalar s => s.isInteger
    | .enumeration _ => false

/-! ## Tables -/

/-- The name of the record type. -/
def recordTypeName (tableType : String) : String := tableType ++ "Record"

/-- Builds the schema of the table in the file with a stem. -/
def build (stem : String) (header types : List String) (rows : List Row) :
    Except SchemaError TableSchema :=
  if header.length = types.length then
    match TableNames.ofStem stem with
    | .error fault => .error (.tableName stem fault)
    | .ok names =>
      match headerFault? [] header with
      | some (column, fault) => .error (.columnName column fault)
      | none => do
        let record := recordTypeName names.typeName
        let columns ← columnsFrom names.typeName rows 0 []
          (record :: names.typeName :: reservedTypes) (header.zip types)
        return ⟨names.typeName, names.moduleName, record, columns, columns.any Column.isKey⟩
  else .error (.columnCount header.length types.length)

end TypedTables.Schema
