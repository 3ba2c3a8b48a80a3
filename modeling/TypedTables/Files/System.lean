/-
Operations on a file tree by written paths, with the errors that an operating system reports. A path
is followed part by part from the root of the tree: `.` stays, `..` goes up, and every part but the
last must lead to a folder. A path that leaves the tree, as an absolute one does, leads to nothing.
-/
import TypedTables.Files.Folder
import TypedTables.Files.Path

namespace TypedTables.Files

/-! ## Errors -/

/-- What an operation can fail with. -/
inductive OsError where
  | notFound
  | alreadyExists
  | notAFolder
  | isAFolder
  | invalidArgument
  | nameTooLong
  | zeroInName
  | notText
  deriving DecidableEq, Repr

def OsError.message : OsError → String
  | .notFound => "No such file or directory (os error 2)"
  | .alreadyExists => "File exists (os error 17)"
  | .notAFolder => "Not a directory (os error 20)"
  | .isAFolder => "Is a directory (os error 21)"
  | .invalidArgument => "Invalid argument (os error 22)"
  | .nameTooLong => "File name too long (os error 36)"
  | .zeroInName => "file name contained an unexpected NUL byte"
  | .notText => "stream did not contain valid UTF-8"

/-- An operation on a file tree, which may change the tree even when it fails. -/
abbrev FileM := ExceptT OsError (StateM Folder)

/-! ## Following paths -/

/-- No name has more bytes. -/
def maxNameSize : Nat := 255

/-- Every path has fewer bytes. -/
def pathSizeLimit : Nat := 4096

/-- Follows the parts of a path from the folder at `here`: the address they lead to, at which
something need exist only for all parts but the last. There is nothing outside of the tree. -/
def follow (root : Folder) (here : Address) : List String → Except OsError Address
  | [] => .ok here
  | part :: rest =>
    if part = "." then follow root here rest
    else if part = ".." then
      if here.isEmpty then .error .notFound else follow root here.dropLast rest
    else if maxNameSize < part.utf8ByteSize then .error .nameTooLong
    else if rest.isEmpty then .ok (here ++ [part])
    else match root.lookup (here ++ [part]) with
      | none => .error .notFound
      | some (.file _) => .error .notAFolder
      | some (.folder _) => follow root (here ++ [part]) rest

/-- The address that a path leads to. -/
def resolve (root : Folder) (p : Path) : Except OsError Address :=
  if p.text.toList.contains '\x00' then .error .zeroInName
  else if p.text.isEmpty || p.isAbsolute then .error .notFound
  else if pathSizeLimit ≤ p.text.utf8ByteSize then .error .nameTooLong
  else follow root [] p.parts

/-- A path that can lead to a folder only: it ends in a slash or a dot part. -/
def namesFolder (p : Path) : Bool :=
  p.endsInSlash || p.endsInDots

/-! ## Questions -/

/-- The entry that a path leads to. -/
def entryAt (root : Folder) (p : Path) : Except OsError Entry :=
  match resolve root p with
  | .error e => .error e
  | .ok address =>
    match root.lookup address with
    | none => .error .notFound
    | some (.file bytes) => if namesFolder p then .error .notAFolder else .ok (.file bytes)
    | some (.folder inside) => .ok (.folder inside)

/-- Whether a path leads to anything. -/
def pathExists (root : Folder) (p : Path) : Bool := (entryAt root p).toOption.isSome

/-- The folder that a path leads to. -/
def folderAt? (root : Folder) (p : Path) : Option Folder :=
  match entryAt root p with
  | .ok (.folder inside) => some inside
  | _ => none

/-- Whether a path leads to a folder. -/
def isFolder (root : Folder) (p : Path) : Bool := (folderAt? root p).isSome

/-- Whether a path leads to a file. -/
def isFile (root : Folder) (p : Path) : Bool :=
  match entryAt root p with
  | .ok (.file _) => true
  | _ => false

/-- The bytes of the file that a path leads to. -/
def readBytes (root : Folder) (p : Path) : Except OsError ByteArray :=
  match entryAt root p with
  | .ok (.file bytes) => .ok bytes
  | .ok (.folder _) => .error .isAFolder
  | .error e => .error e

/-- The text of the file that a path leads to. -/
def readText (root : Folder) (p : Path) : Except OsError String :=
  match readBytes root p with
  | .error e => .error e
  | .ok bytes =>
    match String.fromUTF8? bytes with
    | some s => .ok s
    | none => .error .notText

/-- The files at any depth below the folder that a path leads to, with their paths. -/
def filesBelow (root : Folder) (p : Path) : List (Path × ByteArray) :=
  match folderAt? root p with
  | none => []
  | some inside => inside.files.map fun f => (p.joinAll f.1, f.2)

/-! ## Changes -/

/-- The tree with a file written. -/
def written (root : Folder) (p : Path) (bytes : ByteArray) : Except OsError Folder :=
  match resolve root p with
  | .error e => .error e
  | .ok address =>
    if namesFolder p then .error .isAFolder
    else match root.lookup address with
      | some (.folder _) => .error .isAFolder
      | _ => .ok (root.put (.file bytes) address)

/-- The tree with a new empty folder. -/
def withFolder (root : Folder) (p : Path) : Except OsError Folder :=
  match resolve root p with
  | .error e => .error e
  | .ok address =>
    match root.lookup address with
    | some _ => .error .alreadyExists
    | none => .ok (root.put (.folder .empty) address)

/-- The tree with a file taken out. -/
def withoutFile (root : Folder) (p : Path) : Except OsError Folder :=
  match resolve root p with
  | .error e => .error e
  | .ok address =>
    match root.lookup address with
    | none => .error .notFound
    | some (.folder _) => .error .isAFolder
    | some (.file _) =>
      if namesFolder p then .error .notAFolder else .ok (root.remove address)

/-- The tree that a change makes, or the tree as it was with the error of the change. -/
def change (f : Folder → Except OsError Folder) : FileM Unit := fun root =>
  match f root with
  | .ok root' => (.ok (), root')
  | .error e => (.error e, root)

/-- Makes a folder below one that exists. It may be there already. -/
def makeFolder (p : Path) : FileM Unit := fun root =>
  match withFolder root p with
  | .ok root' => (.ok (), root')
  | .error e => if isFolder root p then (.ok (), root) else (.error e, root)

/-- Makes a folder, after `above` if it does not lie below one that exists. -/
def makeFolderAfter (above : FileM Unit) (p : Path) : FileM Unit := fun root =>
  match withFolder root p with
  | .error .notFound => (do above; makeFolder p : FileM Unit) root
  | _ => makeFolder p root

/-- Makes the first of some folders, each of which lies in the next, and those after it that are
missing. -/
def makeFirstFolder : List Path → FileM Unit
  | [] => pure ()
  | p :: above => makeFolderAfter (makeFirstFolder above) p

/-- Makes a folder and the folders above it that are missing. -/
def makeFolders (p : Path) : FileM Unit :=
  if p.text.isEmpty then pure () else makeFirstFolder (p :: p.ancestors)

/-- Writes a file over one that is there. -/
def writeFile (p : Path) (bytes : ByteArray) : FileM Unit := change fun root => written root p bytes

/-- Takes out a file. -/
def removeFile (p : Path) : FileM Unit := change fun root => withoutFile root p

/-- Takes out a file, or a folder and all in it. A folder whose path ends in dots stays, with
nothing in it; that is an error if the path still leads to it then. -/
def removeTree (p : Path) : FileM Unit := fun root =>
  match entryAt root p, resolve root p with
  | .error e, _ => (.error e, root)
  | _, .error e => (.error e, root)
  | .ok (.file _), .ok address => (.ok (), root.remove address)
  | .ok (.folder _), .ok address =>
    if p.endsInDots then
      let cleared := root.clear address
      (if pathExists cleared p then .error .invalidArgument else .ok (), cleared)
    else (.ok (), root.remove address)

end TypedTables.Files
