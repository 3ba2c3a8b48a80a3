/-
Table files: the files of a folder that hold tables. A file at any depth is one when its extension
is `csv`, in any case, and something stands before the first dot of its name, which names the table.
Main definition: `discover`, which lists them in ascending order of their addresses.
-/
import TypedTables.Csv.Table
import TypedTables.Files.System
import TypedTables.Text.Utf8

namespace TypedTables.Project

open TypedTables.Csv TypedTables.Files TypedTables.Text

/-! ## Errors -/

/-- Why tables cannot be read. -/
inductive ReadError where
  | missingFolder (folder : Path)
  | encoding (path : Path) (offset : Nat)
  | malformed (m : Malformed)
  deriving DecidableEq, Repr

def ReadError.message : ReadError → String
  | .missingFolder folder => "CSV folder does not exist: " ++ folder.text
  | .encoding path offset =>
    path.text ++ " is not valid UTF-8 (first bad byte at offset " ++ toString offset ++ ")"
  | .malformed m => m.message

/-! ## Names -/

/-- The part of a file name before its first dot. -/
def stem (name : String) : String := String.ofList (name.toList.takeWhile fun c => c != '.')

/-- The part of a file name behind its last dot; a dot at the start does not count. -/
def extension? (name : String) : Option String :=
  let behind := name.toList.reverse.takeWhile fun c => c != '.'
  match name.toList.reverse.dropWhile fun c => c != '.' with
  | _ :: _ :: _ => some (String.ofList behind.reverse)
  | _ => none

/-- Whether the file of a name holds a table. -/
def isTableName (name : String) : Bool :=
  (extension? name).map (fun e => e.map Char.toLower) == some "csv" && !(stem name).isEmpty

/-! ## Files -/

/-- A table file: the name of its table, its path, its address in the folder searched, and its
bytes. -/
structure TableFile where
  name : String
  path : Path
  address : Address
  bytes : ByteArray

/-- The table file at an address, if the file there is one. -/
def TableFile.ofEntry? (folder : Path) (entry : Address × ByteArray) : Option TableFile :=
  match entry.1.getLast? with
  | none => none
  | some name =>
    if isTableName name then some ⟨stem name, folder.joinAll entry.1, entry.1, entry.2⟩ else none

/-- The table files of a folder in the order of the walk. -/
def walked (folder : Path) (inside : Folder) : List TableFile :=
  inside.files.filterMap (TableFile.ofEntry? folder)

/-- The table files below the folder that a path leads to. -/
def discover (root : Folder) (folder : Path) : Except ReadError (List TableFile) :=
  match folderAt? root folder with
  | none => .error (.missingFolder folder)
  | some inside =>
    .ok ((walked folder inside).mergeSort fun a b => isAtOrBefore a.address b.address)

def TableFile.text (f : TableFile) : Except ReadError String :=
  match Utf8.decode f.bytes with
  | .ok s => .ok s
  | .error offset => .error (.encoding f.path offset)

/-- The table in a table file. -/
def TableFile.table (f : TableFile) : Except ReadError Table := do
  match Table.parse (← f.text) with
  | .ok t => return t
  | .error m => throw (.malformed m)

end TypedTables.Project
