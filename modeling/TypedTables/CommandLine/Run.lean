/-
Running a command line on a file tree: the exit code, the text for standard output and the tree
afterwards. The code is 0 when all went well, 1 when the command or a table failed, and 2 when the
arguments are wrong.
-/
import TypedTables.CommandLine.Arguments
import TypedTables.CommandLine.Report
import TypedTables.Store.Tree

namespace TypedTables.CommandLine

open TypedTables.Files TypedTables.Json TypedTables.Project TypedTables.Store

/-- What a run leaves behind. -/
structure Outcome where
  exitCode : Nat
  output : String
  files : Folder

def printed (lines : List String) : String := String.join (lines.map (· ++ "\n"))

/-- The exit code of a pass: tables that failed count as a failure. -/
def passCode {α ε : Type} (b : Batch α ε) : Nat := if b.hasFailures then 1 else 0

def runCompile (s : Settings) (files : Folder) : Outcome :=
  match compileTables ⟨s.csvFolder⟩ ⟨s.sourceRoot⟩ files with
  | (.error _, files) => ⟨1, printed (compileHead s), files⟩
  | (.ok r, files) => ⟨passCode r.tables, printed (compileHead s ++ compileLines r), files⟩

def runBind (words : Fault → String) (s : Settings) (files : Folder) : Outcome :=
  let objects : Path := ⟨s.objectFolder⟩
  match bindTables (treeStore objects) id ⟨s.csvFolder⟩ ⟨s.sourceRoot⟩ (policyOf s) files with
  | (.error _, files) => ⟨1, printed (bindHead s), files⟩
  | (.ok r, files) =>
    ⟨passCode r, printed (bindHead s ++ bindLines words (Tree.pathFor objects) r), files⟩

def Request.run (words : Fault → String) (r : Request) (files : Folder) : Outcome :=
  match Settings.load files r.config with
  | .error _ => ⟨1, "", files⟩
  | .ok s =>
    match r.command with
    | .compileSchemas => runCompile (s.override r.overrides) files
    | .bindData => runBind words (s.override r.overrides) files

def versionText : String := printed ["tablemaker 0.1.0"]

def usageText : String :=
  printed ["Usage: tablemaker [OPTIONS] <COMMAND>", "", "Commands:",
    "  compile-schemas  Generate modules, manifests and the registry",
    "  bind-data        Bind every table against its manifest and store it", "", "Options:",
    "      --config <FILE>", "      --csv-folder <FOLDER>", "      --object-folder <FOLDER>",
    "      --source-root <FOLDER>", "  -v, --verbose", "  -h, --help", "  -V, --version"]

/-- Runs a command line; `words` says what is wrong with a manifest. -/
def runWith (words : Fault → String) (environment : Environment) (arguments : List String)
    (files : Folder) : Outcome :=
  match Request.ofArguments environment arguments with
  | .error .version => ⟨0, versionText, files⟩
  | .error .help => ⟨0, usageText, files⟩
  | .error .usage => ⟨2, "", files⟩
  | .ok r => r.run words files

def run : Environment → List String → Folder → Outcome := runWith anyFault

end TypedTables.CommandLine
