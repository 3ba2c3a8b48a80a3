/-
Compiled tables: a table whose record type is known. A table is looked up by key, where the first of
several records with the key wins, and grows at its end only.
-/
import TypedTables.Binding.Rows
import TypedTables.Json.Printer
import TypedTables.Json.Reader

namespace TypedTables.Tables

open TypedTables.Binding TypedTables.Csv TypedTables.Json

/-- What a compiled table needs to know of its record type: the name of the table, the record of a
row, the key of a record, and the JSON form of a record. -/
class Record (ρ : Type) where
  tableName : String
  ofRow : Row → Except CoercionError ρ
  key : ρ → Int
  toValue : ρ → Value
  shape : Shape
  ofValue? : Value → Option ρ

/-- A table of records. -/
structure Table (ρ : Type) where
  records : List ρ
  deriving DecidableEq, Repr

namespace Table

variable {ρ : Type}

def empty : Table ρ := ⟨[]⟩

def add (t : Table ρ) (r : ρ) : Table ρ := ⟨t.records ++ [r]⟩

variable [Record ρ]

/-- The first record with a key. -/
def get? (t : Table ρ) (id : Int) : Option ρ := t.records.find? fun r => Record.key r == id

def addRow (t : Table ρ) (row : Row) : Except CoercionError (Table ρ) :=
  (Record.ofRow row).map t.add

/-- Binds rows: the table, and the rows left out. -/
def bind (policy : Policy) (rows : List Row) : Except BindError (Table ρ × List Rejection) :=
  (bindRows policy (Record.tableName ρ) Record.ofRow rows).map fun b =>
    (b.records.foldl add empty, b.rejected)

def toValue (t : Table ρ) : Value :=
  .object [("records", .array (t.records.map Record.toValue))]

def ofValue? : Value → Option (Table ρ)
  | .object [(_, .array records)] => (records.mapM Record.ofValue?).map Table.mk
  | _ => none

def decode (s : Symbols) : Except Fault (Table ρ) := do
  match ofValue? (← Json.decode (.record [("records", .list (Record.shape ρ))]) s) with
  | some t => return t
  | none => throw .mismatch

end Table

end TypedTables.Tables
