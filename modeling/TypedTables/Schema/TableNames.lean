/-
Names of a table, made from the stem of its file name: the type is the camel-case spelling and the
module the field name of the type. A stem is refused when no valid, unreserved type name comes out
of it.
-/
import TypedTables.Naming.Identifier

namespace TypedTables.Schema

open TypedTables.Naming

/-- Why no table can be named after a stem. -/
inductive NameFault where
  | noLetters
  | noFirstLetter
  | reserved
  deriving DecidableEq, Repr

/-- The reason in words. -/
def NameFault.reason : NameFault → String
  | .noLetters => "contains no letters or digits"
  | .noFirstLetter => "must start with a letter"
  | .reserved => "name is reserved"

/-- The generated names of one table. -/
structure TableNames where
  typeName : String
  moduleName : String
  deriving DecidableEq, Repr

namespace TableNames

/-- The names that belong to a type name. -/
def ofType (typeName : String) : TableNames := ⟨typeName, fieldName typeName⟩

/-- Names a table after the stem of its file. -/
def ofStem (stem : String) : Except NameFault TableNames :=
  let names := ofType (camelCase stem)
  if names.typeName.isEmpty then .error .noLetters
  else if !isIdentifier names.typeName then .error .noFirstLetter
  else if isKeyword names.typeName || reservedTypes.contains names.typeName then .error .reserved
  else if reservedModules.contains names.moduleName then .error .reserved
  else .ok names

end TableNames

end TypedTables.Schema
