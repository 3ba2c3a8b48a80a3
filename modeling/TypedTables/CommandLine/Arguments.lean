/-
The arguments of the command line. Options with a value may stand before and behind the command;
the one behind it wins, and both win over the environment. What stands alone may be given once on
either side. Main definition: `Request.ofArguments`.
-/
import TypedTables.Settings

namespace TypedTables.CommandLine

open TypedTables.Files

/-! ## Options -/

inductive ValueOption where
  | config
  | csvFolder
  | objectFolder
  | sourceRoot
  deriving DecidableEq, Repr

namespace ValueOption

def all : List ValueOption := [config, csvFolder, objectFolder, sourceRoot]

def name : ValueOption → String
  | config => "config"
  | csvFolder => "csv-folder"
  | objectFolder => "object-folder"
  | sourceRoot => "source-root"

/-- The environment variable that stands in for the option. -/
def variableName : ValueOption → String
  | config => "TABLEMAKER_CONFIG"
  | csvFolder => "TABLEMAKER_CSV_FOLDER"
  | objectFolder => "TABLEMAKER_OBJECT_FOLDER"
  | sourceRoot => "TABLEMAKER_SOURCE_ROOT"

/-- Whether a value fits the option: a file has a name, a folder may be empty. -/
def accepts (o : ValueOption) (value : String) : Bool := o != config || !value.isEmpty

end ValueOption

inductive Command where
  | compileSchemas
  | bindData
  deriving DecidableEq, Repr

namespace Command

def all : List Command := [compileSchemas, bindData]

def name : Command → String
  | compileSchemas => "compile-schemas"
  | bindData => "bind-data"

def ofName? (s : String) : Option Command := all.find? fun c => c.name == s

end Command

/-- Why no command runs. -/
inductive Stop where
  | version
  | help
  | usage
  deriving DecidableEq, Repr

/-! ## Arguments -/

/-- One argument: a word, an option written out with a value behind `=` or not, letters behind one
dash, or the dashes that end the options. -/
inductive Argument where
  | word (text : String)
  | long (name : String) (value : Option String)
  | short (letters : List Char)
  | endOfOptions
  deriving DecidableEq, Repr

def Argument.ofText (s : String) : Argument :=
  match s.toList with
  | ['-', '-'] => .endOfOptions
  | '-' :: '-' :: cs =>
    let name := cs.takeWhile fun c => c != '='
    match cs.dropWhile fun c => c != '=' with
    | [] => .long (String.ofList name) none
    | _ :: value => .long (String.ofList name) (some (String.ofList value))
  | '-' :: c :: cs => .short (c :: cs)
  | _ => .word s

/-- What is given on one side of the command. -/
structure Given where
  values : List (ValueOption × String)
  verbose : Bool
  failFast : Bool
  deriving DecidableEq, Repr

namespace Given

def nothing : Given := ⟨[], false, false⟩

/-- Gives a value to an option that has none. -/
def addValue (g : Given) (o : ValueOption) (value : String) : Except Stop Given :=
  if (g.values.lookup o).isSome || !o.accepts value then .error .usage
  else .ok { g with values := (o, value) :: g.values }

/-- Asks for a detailed log, once. -/
def addVerbose (g : Given) : Except Stop Given :=
  if g.verbose then .error .usage else .ok { g with verbose := true }

/-- Asks to stop at invalid rows, once. -/
def addFailFast (g : Given) : Except Stop Given :=
  if g.failFast then .error .usage else .ok { g with failFast := true }

/-- Letters behind one dash. Only before the command is there a letter for the version. -/
def addLetters (command : Option Command) (g : Given) : List Char → Except Stop Given
  | [] => .ok g
  | c :: rest =>
    if c == 'v' then g.addVerbose.bind fun g => g.addLetters command rest
    else if c == 'h' then .error .help
    else if c == 'V' && command.isNone then .error .version
    else .error .usage

/-- An option without a value, written out. -/
def addFlag (command : Option Command) (g : Given) (name : String) : Except Stop Given :=
  if name == "verbose" then g.addVerbose
  else if name == "help" then .error .help
  else if name == "version" && command.isNone then .error .version
  else if name == "fail-fast" && command == some .bindData then g.addFailFast
  else .error .usage

end Given

/-- Reads the options on one side of the command, up to the first word. -/
def readOptions (command : Option Command) (g : Given) :
    List String → Except Stop (Given × List String)
  | [] => .ok (g, [])
  | a :: rest =>
    match Argument.ofText a with
    | .word _ => .ok (g, a :: rest)
    | .endOfOptions => if rest.isEmpty then .ok (g, []) else .error .usage
    | .short letters => do readOptions command (← g.addLetters command letters) rest
    | .long name value =>
      match ValueOption.all.find? fun o => o.name == name, value with
      | none, none => do readOptions command (← g.addFlag command name) rest
      | none, some _ => .error .usage
      | some o, some v => do readOptions command (← g.addValue o v) rest
      | some o, none =>
        match rest with
        | [] => .error .usage
        | v :: rest =>
          match Argument.ofText v with
          | .word _ => do readOptions command (← g.addValue o v) rest
          | _ => .error .usage

/-! ## Requests -/

/-- The environment variables with their values. -/
abbrev Environment := List (String × String)

/-- A command to run: the settings file that is named, the overrides, and the command. -/
structure Request where
  config : Option Path
  overrides : Overrides
  command : Command
  deriving DecidableEq, Repr

/-- The value of an option: given behind the command, before it, or in the environment. -/
def valueOf (environment : Environment) (before behind : Given) (o : ValueOption) : Option String :=
  ((behind.values.lookup o).or (before.values.lookup o)).or (environment.lookup o.variableName)

/-- Whether the environment has a value that does not fit, and that one side looks at. -/
def hasUnfitVariable (environment : Environment) (before behind : Given) : Bool :=
  ValueOption.all.any fun o =>
    (environment.lookup o.variableName).any (fun v => !o.accepts v) &&
      !((behind.values.lookup o).isSome && (before.values.lookup o).isSome)

/-- Asking for help: about everything, or about one command. -/
def helpRequest (rest : List String) : Stop :=
  match rest with
  | [] => .help
  | [word] => if word == "help" || (Command.ofName? word).isSome then .help else .usage
  | _ => .usage

/-- The request that arguments make. -/
def Request.ofArguments (environment : Environment) (arguments : List String) :
    Except Stop Request := do
  let (before, rest) ← readOptions none .nothing arguments
  match rest with
  | [] => throw .usage
  | word :: rest =>
    match Command.ofName? word with
    | none => throw (if word == "help" then helpRequest rest else .usage)
    | some command =>
      let (behind, rest) ← readOptions (some command) .nothing rest
      if !rest.isEmpty || hasUnfitVariable environment before behind then throw .usage
      else
        let value := valueOf environment before behind
        return {
          config := (value .config).map fun text => ⟨text⟩
          overrides := ⟨value .csvFolder, value .objectFolder, value .sourceRoot, behind.failFast⟩
          command := command }

end TypedTables.CommandLine
