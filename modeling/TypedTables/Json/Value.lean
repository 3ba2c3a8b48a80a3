/-
JSON values. Numbers keep apart integers and binary numbers of the two formats. Members of an object
keep their order; `insertMember` keeps members with ascending names, one for each name.
-/
import TypedTables.Decimal.Binary

namespace TypedTables.Json

open TypedTables.Decimal

/-- A number: an integer or a binary number of 32 or 64 bits. -/
inductive Number where
  | int (n : Int)
  | single (x : Binary)
  | double (x : Binary)
  deriving DecidableEq, Repr

/-- A JSON value. -/
inductive Value where
  | null
  | bool (b : Bool)
  | number (n : Number)
  | string (s : String)
  | array (items : List Value)
  | object (members : List (String × Value))
  deriving Inhabited

/-- Names with values. -/
abbrev Members := List (String × Value)

/-- Adds a member among members with ascending names, or replaces the value of its name. -/
def insertMember (name : String) (value : Value) : Members → Members
  | [] => [(name, value)]
  | (n, v) :: rest =>
    if name < n then (name, value) :: (n, v) :: rest
    else if name = n then (name, value) :: rest
    else (n, v) :: insertMember name value rest

/-- The value of a name. -/
def member? (name : String) (members : Members) : Option Value :=
  (members.find? fun m => m.1 == name).map Prod.snd

end TypedTables.Json
