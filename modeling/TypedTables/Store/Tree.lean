/-
The store in a file tree: the object of a name is a file in the store's folder. Loading searches the
folder at every depth, so a copy in a sub-folder is found as well.
-/
import TypedTables.Store.Basic

namespace TypedTables.Store

open TypedTables.Files

namespace Tree

/-- The path of the object of a name. -/
def pathFor (folder : Path) (name : String) : Path := folder.join (fileName name)

def contains (folder : Path) (root : Folder) (name : String) : Bool :=
  isFile root (pathFor folder name)

/-- An operation on files as one of the store. -/
def files {α : Type} (f : FileM α) : ExceptT StoreError (StateM Folder) α := f.adapt .os

/-- Takes out the file of a name, if it has one. -/
def delete (folder : Path) (name : String) : ExceptT StoreError (StateM Folder) Unit := fun root =>
  if contains folder root name then files (removeFile (pathFor folder name)) root
  else (.ok (), root)

/-- Writes the file of a name whose path is free. -/
def create (folder : Path) (name : String) (bytes : ByteArray) :
    ExceptT StoreError (StateM Folder) Unit := fun root =>
  let p := pathFor folder name
  if pathExists root p then (.error (.alreadyExists p.text), root)
  else files (do makeFolders folder; writeFile p bytes) root

/-- The bytes of every file of the name at any depth, in order of the walk. -/
def objectsOf (folder : Path) (root : Folder) (name : String) : List ByteArray :=
  match folderAt? root folder with
  | none => []
  | some inside =>
    (inside.files.filter fun f => f.1.getLast? == some (fileName name)).map Prod.snd

end Tree

/-- The operations of the store in a folder of a file tree. -/
def treeStore (folder : Path) : ObjectStore Folder where
  holds root name := .ok (Tree.contains folder root name)
  delete := Tree.delete folder
  create := Tree.create folder
  loadAll root name := .ok (Tree.objectsOf folder root name)

@[simp] theorem contains_treeStore (folder : Path) (root : Folder) (name : String) :
    (treeStore folder).contains root name = Tree.contains folder root name := rfl

end TypedTables.Store
