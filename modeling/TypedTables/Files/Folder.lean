/-
File trees. A folder holds files and folders in ascending order of their names; an address is the
list of names that leads from a folder down to one of them. Main definitions: `lookup`, `put` and
`remove` by address, and `files`, the depth-first walk.
-/

namespace TypedTables.Files

/-- What a folder holds: nothing, or a file or a folder of some name followed by the rest. -/
inductive Folder where
  | empty
  | file (name : String) (bytes : ByteArray) (rest : Folder)
  | folder (name : String) (inside rest : Folder)

inductive Entry where
  | file (bytes : ByteArray)
  | folder (inside : Folder)

/-- The names from a folder down to an entry. -/
abbrev Address := List String

/-- The order of addresses, name by name: a folder comes before all that is in it. -/
def isAtOrBefore : Address → Address → Bool
  | [], _ => true
  | _ :: _, [] => false
  | a :: as, b :: bs => if a < b then true else if a = b then isAtOrBefore as bs else false

namespace Folder

/-! ## One folder -/

def find? (name : String) : Folder → Option Entry
  | .empty => none
  | .file n bytes rest => if name = n then some (.file bytes) else rest.find? name
  | .folder n inside rest => if name = n then some (.folder inside) else rest.find? name

def cons (name : String) : Entry → Folder → Folder
  | .file bytes, rest => .file name bytes rest
  | .folder inside, rest => .folder name inside rest

/-- Puts an entry at its place among ascending names, over one of the same name. -/
def insert (name : String) (entry : Entry) : Folder → Folder
  | .empty => cons name entry .empty
  | .file n bytes rest =>
    if name < n then cons name entry (.file n bytes rest)
    else if name = n then cons name entry rest
    else .file n bytes (rest.insert name entry)
  | .folder n inside rest =>
    if name < n then cons name entry (.folder n inside rest)
    else if name = n then cons name entry rest
    else .folder n inside (rest.insert name entry)

def erase (name : String) : Folder → Folder
  | .empty => .empty
  | .file n bytes rest => if name = n then rest else .file n bytes (rest.erase name)
  | .folder n inside rest => if name = n then rest else .folder n inside (rest.erase name)

def names : Folder → List String
  | .empty => []
  | .file n _ rest => n :: rest.names
  | .folder n _ rest => n :: rest.names

/-- Names ascend strictly, here and in every folder below. -/
def Ascending : Folder → Prop
  | .empty => True
  | .file n _ rest => (∀ m ∈ rest.names, n < m) ∧ rest.Ascending
  | .folder n inside rest => (∀ m ∈ rest.names, n < m) ∧ inside.Ascending ∧ rest.Ascending

/-! ## Addresses -/

/-- The entry at an address; the empty address is the folder itself. -/
def lookup : Address → Folder → Option Entry
  | [], f => some (.folder f)
  | name :: rest, f =>
    match f.find? name with
    | none => none
    | some (.file bytes) => if rest.isEmpty then some (.file bytes) else none
    | some (.folder inside) => lookup rest inside

/-- Puts an entry at an address whose folder exists. -/
def put (entry : Entry) : Address → Folder → Folder
  | [], f => f
  | [name], f => f.insert name entry
  | name :: rest, f =>
    match f.find? name with
    | some (.folder inside) => f.insert name (.folder (put entry rest inside))
    | _ => f

def remove : Address → Folder → Folder
  | [], f => f
  | [name], f => f.erase name
  | name :: rest, f =>
    match f.find? name with
    | some (.folder inside) => f.insert name (.folder (remove rest inside))
    | _ => f

/-- Takes out all that is in the folder at an address. -/
def clear (address : Address) (f : Folder) : Folder :=
  if address.isEmpty then .empty else f.put (.folder .empty) address

/-! ## Walks -/

/-- Every file at any depth with its address: depth first, each folder in order of names. -/
def files : Folder → List (Address × ByteArray)
  | .empty => []
  | .file n bytes rest => ([n], bytes) :: rest.files
  | .folder n inside rest => inside.files.map (fun f => (n :: f.1, f.2)) ++ rest.files

end Folder

end TypedTables.Files
