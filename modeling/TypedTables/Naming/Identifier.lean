/-
Identifiers of the generated code: which names are valid, which words the language keeps for
itself, and how any text is made into the name of a field or a type. The name made is never empty,
never starts with a digit and is never a keyword.
-/
import TypedTables.Naming.Words

namespace TypedTables.Naming

/-- Why a name is not a valid identifier. -/
inductive Issue where
  | empty
  | badFirst (c : Char)
  | badChar (c : Char)
  deriving DecidableEq, Repr

def Issue.message : Issue → String
  | .empty => "name is empty"
  | .badFirst c => "must start with a letter or '_', found '" ++ c.toString ++ "'"
  | .badChar c => "contains invalid character '" ++ c.toString ++ "'"

/-- An identifier starts with an ASCII letter or an underscore. -/
def isFirstChar (c : Char) : Bool := c.isAlpha || c == '_'

/-- An identifier goes on with ASCII letters, digits and underscores. -/
def isNextChar (c : Char) : Bool := c.isAlphanum || c == '_'

/-- The first issue of a name, `none` for a valid identifier. -/
def issueOfChars : List Char → Option Issue
  | [] => some .empty
  | c :: rest =>
    if isFirstChar c then (rest.find? fun d => !isNextChar d).map .badChar
    else some (.badFirst c)

/-- The first issue of a name, `none` for a valid identifier. -/
def issue? (name : String) : Option Issue := issueOfChars name.toList

/-- A valid identifier has no issue. -/
def isIdentifier (name : String) : Bool := (issue? name).isNone

/-- Words that the generated language keeps for itself. -/
def keywords : List String :=
  ["Self", "abstract", "as", "async", "await", "become", "box", "break", "const", "continue",
    "crate", "do", "dyn", "else", "enum", "extern", "false", "final", "fn", "for", "gen", "if",
    "impl", "in", "let", "loop", "macro", "match", "mod", "move", "mut", "override", "priv",
    "pub", "ref", "return", "self", "static", "struct", "super", "trait", "true", "try",
    "type", "typeof", "unsafe", "unsized", "use", "virtual", "where", "while", "yield"]

/-- A keyword cannot name anything. -/
def isKeyword (name : String) : Bool := keywords.contains name

/-- Type names that a generated module or the registry module already uses. -/
def reservedTypes : List String :=
  ["Arc", "AssetStore", "Deserialize", "FromRow", "None", "Ok", "Option", "RegistryLoadError",
    "Result", "RowValue", "Serialize", "Some", "String", "Table", "TableEnum", "TableRegistry",
    "Tables", "TypeCoercionError", "Vec"]

/-- Module names that would clash with the methods or the imports of the registry module. -/
def reservedModules : List String :=
  ["core", "new", "registry", "serde", "std", "tablemaker_runtime"]

/-- Puts an underscore before a leading digit. -/
def guardDigit (name : String) : String :=
  if name.toList.head?.any Char.isDigit then "_" ++ name else name

/-- Puts an underscore after a keyword. -/
def guardKeyword (name : String) : String := if isKeyword name then name ++ "_" else name

/-- Makes `base` an identifier; `fallback` stands in for an empty one. -/
def usable (base fallback : String) : String :=
  guardKeyword (guardDigit (if base.isEmpty then fallback else base))

/-- The name of a record's field for a column. -/
def fieldName (column : String) : String := usable (snakeCase column) "field"

/-- The name of a type or a variant for a text. -/
def typeName (text fallback : String) : String := usable (camelCase text) fallback

end TypedTables.Naming
