/-
The table of monsters.
-/
import TypedTables.Tables.Record

namespace TypedTables.Tables

open TypedTables.Binding TypedTables.Csv TypedTables.Decimal TypedTables.Json

inductive Element where
  | water
  | fire
  deriving DecidableEq, Repr

namespace Element

def all : List Element := [.water, .fire]

def text : Element → String
  | .water => "Water"
  | .fire => "Fire"

def ofText? (s : String) : Option Element := all.find? fun e => e.text == s

end Element

/-- A record of the table of monsters. `speed` has 32 bits and `experience` has 64. -/
structure Monster where
  id : Int
  name : String
  health : Int
  speed : Binary
  experience : Binary
  boss : Bool
  element : Element
  deriving DecidableEq, Repr

namespace Monster

def ofRow (row : Row) : Except CoercionError Monster := do
  return {
    id := ← intCell row "ID"
    name := ← stringCell row "Name"
    health := ← longCell row "Health"
    speed := ← floatCell row "Speed"
    experience := ← doubleCell row "Experience"
    boss := ← boolCell row "Boss"
    element := ← enumCell Element.ofText? row "Element" }

def toValue (r : Monster) : Value :=
  .object [("ID", .number (.int r.id)), ("Name", .string r.name),
    ("Health", .number (.int r.health)), ("Speed", .number (.single r.speed)),
    ("Experience", .number (.double r.experience)), ("Boss", .bool r.boss),
    ("Element", .string r.element.text)]

def shape : Shape :=
  .record [("ID", .int intRange.1 intRange.2), ("Name", .string),
    ("Health", .int longRange.1 longRange.2), ("Speed", .single), ("Experience", .double),
    ("Boss", .bool), ("Element", .choice (Element.all.map fun e => (e.text, none)))]

/-- The record of a value that has the shape of a record. -/
def ofValue? : Value → Option Monster
  | .object [(_, .number (.int id)), (_, .string name), (_, .number (.int health)),
      (_, .number (.single speed)), (_, .number (.double experience)), (_, .bool boss),
      (_, .string element)] =>
    (Element.ofText? element).map fun e => ⟨id, name, health, speed, experience, boss, e⟩
  | _ => none

end Monster

instance : Record Monster where
  tableName := "Monsters"
  ofRow := Monster.ofRow
  key := Monster.id
  toValue := Monster.toValue
  shape := Monster.shape
  ofValue? := Monster.ofValue?

abbrev Monsters := Table Monster

end TypedTables.Tables
