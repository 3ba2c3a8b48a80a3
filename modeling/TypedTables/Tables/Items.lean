/-
The table of items.
-/
import TypedTables.Tables.Record

namespace TypedTables.Tables

open TypedTables.Binding TypedTables.Csv TypedTables.Json

inductive Kind where
  | weapon
  | armor
  deriving DecidableEq, Repr

namespace Kind

def all : List Kind := [.weapon, .armor]

def text : Kind → String
  | .weapon => "Weapon"
  | .armor => "Armor"

def ofText? (s : String) : Option Kind := all.find? fun k => k.text == s

end Kind

structure Item where
  id : Int
  name : String
  kind : Kind
  deriving DecidableEq, Repr

namespace Item

def ofRow (row : Row) : Except CoercionError Item := do
  return {
    id := ← intCell row "ID"
    name := ← stringCell row "Name"
    kind := ← enumCell Kind.ofText? row "Kind" }

def toValue (r : Item) : Value :=
  .object [("ID", .number (.int r.id)), ("Name", .string r.name), ("Kind", .string r.kind.text)]

def shape : Shape :=
  .record [("ID", .int intRange.1 intRange.2), ("Name", .string),
    ("Kind", .choice (Kind.all.map fun k => (k.text, none)))]

/-- The record of a value that has the shape of a record. -/
def ofValue? : Value → Option Item
  | .object [(_, .number (.int id)), (_, .string name), (_, .string kind)] =>
    (Kind.ofText? kind).map fun k => ⟨id, name, k⟩
  | _ => none

end Item

instance : Record Item where
  tableName := "Items"
  ofRow := Item.ofRow
  key := Item.id
  toValue := Item.toValue
  shape := Item.shape
  ofValue? := Item.ofValue?

abbrev Items := Table Item

end TypedTables.Tables
