/-
Object stores: places that keep the stored form of tables by name. A store is given by what it does
with a state, so that one pass can work on objects in memory and on objects in a file tree alike.
-/
import TypedTables.Files.System

namespace TypedTables.Store

open TypedTables.Files

inductive StoreError where
  | os (e : OsError)
  | broken
  | alreadyExists (what : String)
  deriving DecidableEq, Repr

def StoreError.message : StoreError → String
  | .os e => "IO error: " ++ e.message
  | .broken => "IO error: broken"
  | .alreadyExists what => "Asset already exists: " ++ what

/-- What a store does with its state. `holds` says whether there is an object of a name, `create`
refuses a name that has one, and `loadAll` gives every object of a name. An operation that fails may
still change the state. -/
structure ObjectStore (σ : Type) where
  holds : σ → String → Except StoreError Bool
  delete : String → ExceptT StoreError (StateM σ) Unit
  create : String → ByteArray → ExceptT StoreError (StateM σ) Unit
  loadAll : σ → String → Except StoreError (List ByteArray)

namespace ObjectStore

variable {σ : Type}

/-- Whether a store says that there is an object of a name. -/
def contains (store : ObjectStore σ) (s : σ) (name : String) : Bool :=
  (store.holds s name).toOption.getD false

/-- Asks a store whether there is an object of a name. -/
def ask (store : ObjectStore σ) (name : String) : ExceptT StoreError (StateM σ) Bool := fun s =>
  (store.holds s name, s)

end ObjectStore

def fileName (name : String) : String := name ++ ".json"

end TypedTables.Store
