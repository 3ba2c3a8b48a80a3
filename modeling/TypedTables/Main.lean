/-
The program. It reads the files of the working folder, runs the command line on them, and writes
back what the run changed. All that it decides is in `CommandLine.run`.
-/
import TypedTables.CommandLine.Run

namespace TypedTables.CommandLine

open TypedTables.Files

/-- Reads the files at any depth below a folder. -/
partial def readFolder (path : String) : IO Folder := do
  let mut folder := Folder.empty
  for entry in ← (← IO.FS.realPath path).readDir do
    let below := path ++ "/" ++ entry.fileName
    if ← entry.path.isDir then
      folder := folder.insert entry.fileName (.folder (← readFolder below))
    else if ← entry.path.pathExists then
      folder := folder.insert entry.fileName (.file (← IO.FS.readBinFile below))
  return folder

/-- The path of an address in the working folder. -/
def localPath (address : Address) : String := "./" ++ (Path.ofParts address).text

/-- Whether a file has the same bytes in a folder. -/
def isUnchanged (folder : Folder) (address : Address) (bytes : ByteArray) : Bool :=
  match folder.lookup address with
  | some (.file old) => old.data == bytes.data
  | _ => false

/-- Writes the files that a run changed and removes those that it took out. -/
def writeChanges (before after : Folder) : IO Unit := do
  for (address, _) in before.files do
    if (after.lookup address).isNone then IO.FS.removeFile (localPath address)
  for (address, bytes) in after.files do
    if !isUnchanged before address bytes then
      IO.FS.createDirAll (localPath address.dropLast)
      IO.FS.writeBinFile (localPath address) bytes

/-- The environment variables that options look at. -/
def readEnvironment : IO Environment := do
  let mut environment := []
  for o in ValueOption.all do
    if let some value ← IO.getEnv o.variableName then
      environment := (o.variableName, value) :: environment
  return environment

end TypedTables.CommandLine

/-- Runs the command line in the working folder. -/
def main (arguments : List String) : IO UInt32 := do
  let files ← TypedTables.CommandLine.readFolder "."
  let environment ← TypedTables.CommandLine.readEnvironment
  let outcome := TypedTables.CommandLine.run environment arguments files
  TypedTables.CommandLine.writeChanges files outcome.files
  IO.print outcome.output
  return outcome.exitCode.toUInt32
