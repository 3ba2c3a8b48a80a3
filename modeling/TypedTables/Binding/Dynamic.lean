/-
Tables bound by their schema alone: a record has a JSON value for each column, under the column's
name and in ascending order of names. The table has the same JSON layout as a compiled one.
-/
import TypedTables.Binding.Rows
import TypedTables.Json.Printer
import TypedTables.Json.Reader

namespace TypedTables.Binding

open TypedTables.Csv TypedTables.Json TypedTables.Schema

/-- The record of a row with the values of further columns put into it. -/
def recordFrom (row : Row) (record : Members) : List Column → Except CoercionError Members
  | [] => .ok record
  | c :: rest =>
    match valueCell c row with
    | .error e => .error e
    | .ok v => recordFrom row (insertMember c.name v record) rest

def dynamicRecord (s : TableSchema) (row : Row) : Except CoercionError Members :=
  recordFrom row [] s.columns

/-- A table without a type of its own. -/
structure DynamicTable where
  records : List Members

namespace DynamicTable

def toValue (t : DynamicTable) : Value := .object [("records", .array (t.records.map .object))]

def shape : Shape := .record [("records", .list .members)]

def members? : Value → Option Members
  | .object members => some members
  | _ => none

def ofValue? : Value → Option DynamicTable
  | .object [(_, .array records)] => (records.mapM members?).map DynamicTable.mk
  | _ => none

def decode (s : Symbols) : Except Fault DynamicTable := do
  match ofValue? (← Json.decode shape s) with
  | some t => return t
  | none => throw .mismatch

end DynamicTable

/-- Binds rows by a schema: the table, and the rows left out. -/
def bindSchema (policy : Policy) (s : TableSchema) (rows : List Row) :
    Except BindError (DynamicTable × List Rejection) :=
  (bindRows policy s.tableName (dynamicRecord s) rows).map fun b => (⟨b.records⟩, b.rejected)

end TypedTables.Binding
