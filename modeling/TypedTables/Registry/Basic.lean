/-
The registry keeps one instance of each stored table. A name is loaded when it is first asked for
and answered from its slot afterwards; a load that fails is tried again by the next call, and a name
with nothing stored leaves no slot behind. Here calls follow one another, each with its outcome in
one go; `Registry.Machine` takes calls apart into steps and lets them overlap.
-/
import TypedTables.Binding.Dynamic
import TypedTables.Store.Basic
import TypedTables.Tables.Catalog

namespace TypedTables

open TypedTables.Binding TypedTables.Json TypedTables.Store TypedTables.Tables TypedTables.Text

namespace Registry

/-! ## Instances -/

/-- The types that tables can be asked for as: the tables of each type, how an object is read as one of
them, and what can be wrong with an object, with the words for it. -/
class TableTypes where
  Ty : Type
  Table : Ty → Type
  Fault : Type
  [decidableEq : DecidableEq Ty]
  name : Ty → String
  decode : (type : Ty) → ByteArray → Except Fault (Table type)
  describe : Fault → String

export TableTypes (Ty)

attribute [reducible, instance] TableTypes.decidableEq

/-- A table of one of the types. -/
structure AnyTable [TableTypes] where
  type : Ty
  table : TableTypes.Table type

/-- A loaded table. Two instances are the same iff their numbers are equal. -/
structure Instance [TableTypes] where
  id : Nat
  table : AnyTable

/-! ## Errors -/

/-- Why a call gets no table. -/
inductive LoadError [TableTypes] where
  | notFound (name : String)
  | ambiguous (name : String) (count : Nat)
  | store (name : String) (e : StoreError)
  | decode (name : String) (fault : TableTypes.Fault)
  | typeMismatch (name : String) (expected : Ty)

section

variable [TableTypes]

/-- The error in words, with those for what caused it. -/
def LoadError.message : LoadError → String
  | .notFound name => "No persisted instance found for table " ++ name
  | .ambiguous name count =>
    "Expected exactly one persisted instance for table " ++ name ++ ", found " ++ toString count
  | .store name e => "Failed to read table " ++ name ++ ": " ++ e.message
  | .decode name fault => "Failed to decode table " ++ name ++ ": " ++ TableTypes.describe fault
  | .typeMismatch name expected =>
    "Table " ++ name ++ " is already loaded as a different type than " ++ TableTypes.name expected

/-! ## Loading -/

/-- What a store answers when it is asked for all objects of a name. -/
abbrev Loader := String → Except StoreError (List ByteArray)

/-- Loads a table: exactly one object must be stored, and it must be a table of the type. -/
def load (loader : Loader) (name : String) (type : Ty) : Except LoadError AnyTable :=
  match loader name with
  | .error e => .error (.store name e)
  | .ok [] => .error (.notFound name)
  | .ok [object] =>
    match TableTypes.decode type object with
    | .ok t => .ok ⟨type, t⟩
    | .error fault => .error (.decode name fault)
  | .ok objects => .error (.ambiguous name objects.length)

end

/-! ## Slots -/

/-- What the slot of a name holds. A discarded slot is no longer that of its name. -/
inductive Slot [TableTypes] where
  | unloaded
  | loaded (i : Instance)
  | failed (e : LoadError)
  | discarded

/-- What callers can see of a name. -/
inductive LoadState where
  | unloaded
  | loaded
  | failed (message : String)
  deriving DecidableEq, Repr

section

variable [TableTypes]

/-- The instance of a slot for a call that asks for a type; `none` if the table must be loaded. -/
def Slot.answer? (name : String) (type : Ty) : Slot → Option (Except LoadError Instance)
  | .loaded i => some (if i.table.type = type then .ok i else .error (.typeMismatch name type))
  | _ => none

/-- What callers can see of a slot. -/
def Slot.state : Slot → LoadState
  | .unloaded | .discarded => .unloaded
  | .loaded _ => .loaded
  | .failed e => .failed e.message

end

end Registry

/-- A registry: the slots of names, the number of the next instance and how often the store was
asked for objects. -/
@[ext]
structure Registry [Registry.TableTypes] where
  slots : List (String × Registry.Slot)
  nextId : Nat
  loads : Nat

namespace Registry

section

variable [TableTypes]

def empty : Registry := ⟨[], 0, 0⟩

/-- The slot of a name. -/
def slot? (r : Registry) (name : String) : Option Slot :=
  (r.slots.find? fun s => s.1 == name).map Prod.snd

/-- The registry with another slot, or none, for a name. -/
def setSlot (r : Registry) (name : String) : Option Slot → Registry
  | none => { r with slots := r.slots.filter fun s => s.1 != name }
  | some slot =>
    { r with slots :=
        if (r.slot? name).isSome then
          r.slots.map fun s => if s.1 = name then (name, slot) else s
        else (name, slot) :: r.slots }

/-- What callers can see of a name. -/
def state (r : Registry) (name : String) : LoadState :=
  ((r.slot? name).map Slot.state).getD .unloaded

/-- Whether the slot holds an instance. -/
def isLoaded : Slot → Bool
  | .loaded _ => true
  | _ => false

/-- The names with an instance, in ascending order. -/
def loadedNames (r : Registry) : List String :=
  ((r.slots.filter fun s => isLoaded s.2).map Prod.fst).mergeSort (· ≤ ·)

/-- The slot that a name is left with after a load, and the answer of the call. -/
def afterLoad (id : Nat) : Except LoadError AnyTable → Option Slot × Except LoadError Instance
  | .ok table => (some (.loaded ⟨id, table⟩), .ok ⟨id, table⟩)
  | .error (.notFound name) => (none, .error (.notFound name))
  | .error e => (some (.failed e), .error e)

/-- One call: the instance of a name, loaded if it is not yet, and the registry after it. -/
def get (loader : Loader) (r : Registry) (name : String) (type : Ty) :
    Except LoadError Instance × Registry :=
  match (r.slot? name).bind fun s => s.answer? name type with
  | some answer => (answer, r)
  | none =>
    let outcome := load loader name type
    let (slot, answer) := afterLoad r.nextId outcome
    let r := r.setSlot name slot
    (answer, { r with
      nextId := match outcome with
        | .ok _ => r.nextId + 1
        | .error _ => r.nextId
      loads := r.loads + 1 })

end

/-! ## Dynamic and compiled tables -/

/-- Tables without a type of their own, and the compiled ones. -/
inductive TableType where
  | dynamic
  | items
  | monsters
  deriving DecidableEq, Repr

namespace TableType

def name : TableType → String
  | .dynamic => "tablemaker_runtime::binder::DynamicTable"
  | .items => "tablemaker_testing::tables::items::Items"
  | .monsters => "tablemaker_testing::tables::monsters::Monsters"

/-- The tables of the type. -/
def Table : TableType → Type
  | .dynamic => DynamicTable
  | .items => Items
  | .monsters => Monsters

def decode : (type : TableType) → ByteArray → Except Fault type.Table
  | .dynamic, object => DynamicTable.decode (Utf8.symbols object)
  | .items, object => Tables.Table.decode (ρ := Item) (Utf8.symbols object)
  | .monsters, object => Tables.Table.decode (ρ := Monster) (Utf8.symbols object)

end TableType

/-- The types of the catalog. What is wrong with an object has no words of its own here, so that the
message of an error ends before them. -/
instance : TableTypes where
  Ty := TableType
  Table := TableType.Table
  Fault := Fault
  name := TableType.name
  decode := TableType.decode
  describe _ := ""

def AnyTable.toValue : AnyTable → Value
  | ⟨.dynamic, t⟩ => DynamicTable.toValue t
  | ⟨.items, t⟩ => Tables.Table.toValue (ρ := Item) t
  | ⟨.monsters, t⟩ => Tables.Table.toValue (ρ := Monster) t

/-- A call for the table of items. -/
def getItems (loader : Loader) (r : Registry) : Except LoadError Instance × Registry :=
  r.get loader itemsName TableType.items

/-- A call for the table of monsters. -/
def getMonsters (loader : Loader) (r : Registry) : Except LoadError Instance × Registry :=
  r.get loader monstersName TableType.monsters

end Registry

end TypedTables
