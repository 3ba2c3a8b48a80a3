/-
The store in memory: a list of objects for each name. Creating asks for a free name, but copies may
be added under a name that holds objects.
-/
import TypedTables.Store.Basic

namespace TypedTables.Store

/-- The objects of each name, in the order in which the names came. -/
structure Memory where
  objects : List (String × List ByteArray)

namespace Memory

def empty : Memory := ⟨[]⟩

/-- The objects of a name, in the order in which they came. -/
def objectsOf (m : Memory) (name : String) : List ByteArray :=
  ((m.objects.find? fun o => o.1 == name).map Prod.snd).getD []

def contains (m : Memory) (name : String) : Bool := !(m.objectsOf name).isEmpty

/-- Takes out all objects of a name. -/
def delete (m : Memory) (name : String) : Memory := ⟨m.objects.filter fun o => o.1 != name⟩

/-- Adds an object to those of a name. -/
def addCopy (m : Memory) (name : String) (bytes : ByteArray) : Memory :=
  ⟨(name, m.objectsOf name ++ [bytes]) :: (m.delete name).objects⟩

/-- Adds an object under a name that holds none. -/
def create (m : Memory) (name : String) (bytes : ByteArray) : Except StoreError Memory :=
  if m.contains name then .error (.alreadyExists name) else .ok (m.addCopy name bytes)

def names (m : Memory) : List String := (m.objects.map Prod.fst).filter m.contains

/-! ## One equation per operation through `objectsOf` -/

theorem objectsOf_empty (name : String) : empty.objectsOf name = [] := rfl

theorem objectsOf_delete (m : Memory) (name other : String) :
    (m.delete name).objectsOf other = if other = name then [] else m.objectsOf other := by
  obtain ⟨objects⟩ := m
  simp only [delete, objectsOf]
  induction objects with
  | nil => simp
  | cons o rest ih =>
    by_cases h : o.1 = name <;> by_cases h' : o.1 = other <;> simp_all

theorem objectsOf_addCopy (m : Memory) (name other : String) (bytes : ByteArray) :
    (m.addCopy name bytes).objectsOf other =
      if other = name then m.objectsOf name ++ [bytes] else m.objectsOf other := by
  by_cases h : other = name
  · subst h; simp [addCopy, objectsOf]
  · have := objectsOf_delete m name other
    simp only [objectsOf, h, if_false] at this
    simp [addCopy, objectsOf, h, Ne.symm h, this]

end Memory

def memoryStore : ObjectStore Memory where
  holds m name := .ok (m.contains name)
  delete name := fun m => (.ok (), m.delete name)
  create name bytes := fun m =>
    match m.create name bytes with
    | .ok m' => (.ok (), m')
    | .error e => (.error e, m)
  loadAll m name := .ok (m.objectsOf name)

@[simp] theorem contains_memoryStore (m : Memory) (name : String) :
    memoryStore.contains m name = m.contains name := rfl

end TypedTables.Store
