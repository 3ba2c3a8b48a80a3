/-
Names of a table made from other spellings of the stem. The stem in snake case names the same table.
The type name spelled in camel case again may be another type, but its module is the same. Main
statement: `spellings_name_module`.
-/
import TypedTables.Proofs.Naming.Spelling
import TypedTables.Proofs.Schema.Build

namespace TypedTables.Schema

open TypedTables.Naming

/-- Whether a name is kept from types. -/
def isReservedType (name : String) : Bool := isKeyword name || reservedTypes.contains name

namespace TableNames

/-- The type name of a table names a table as well, of the same module, unless it is spelled in camel
case as a name kept from types. -/
theorem ofStem_typeName {stem : String} {names : TableNames} (h : ofStem stem = .ok names) :
    ofStem names.typeName =
      if isReservedType (camelCase names.typeName) then .error .reserved
      else .ok ⟨camelCase names.typeName, names.moduleName⟩ := by
  obtain ⟨rfl, hidentifier, -, -, hmodule⟩ := ofStem_cases h
  have hagain : isIdentifier (camelCase (camelCase stem)) = true := isIdentifier_camelCase hidentifier
  have hne : camelCase (camelCase stem) ≠ "" := ne_empty_of_isIdentifier hagain
  have hfield : fieldName (camelCase (camelCase stem)) = fieldName (camelCase stem) :=
    fieldName_camelCase_camelCase stem
  simp only [ofType] at hmodule ⊢
  simp [ofStem, ofType, isReservedType, hagain, hne, hfield, hmodule]

/-- Only the camel-case spelling of a stem matters. -/
theorem ofStem_congr {stem stem' : String} (h : camelCase stem = camelCase stem') :
    ofStem stem = ofStem stem' := by
  rw [ofStem, ofStem, h]

end TableNames

open TableNames

/-- Spelled in snake case again, a text in snake case stays as it is; spelled in camel case, it becomes
what the text does. A text in camel case may change when it is spelled in camel case again, but has the
same spelling in snake case. So the names of a table are those that the stem in snake case gives, and
its module is also the one that belongs to the type name: this names the same module, or is refused
where it is spelled in camel case as a name kept from types. -/
theorem spellings_name_module (text : String) :
    snakeCase (snakeCase text) = snakeCase text ∧
      camelCase (snakeCase text) = camelCase text ∧
      snakeCase (camelCase (camelCase text)) = snakeCase (camelCase text) ∧
      (∃ other, camelCase (camelCase other) ≠ camelCase other) ∧
      (ofType (camelCase (snakeCase text))).moduleName = (ofType (camelCase text)).moduleName ∧
      (ofType (camelCase (camelCase text))).moduleName = (ofType (camelCase text)).moduleName ∧
      ofStem (snakeCase text) = ofStem text ∧
      ∀ names, ofStem text = .ok names → ofStem names.typeName =
        if isReservedType (camelCase names.typeName) then .error .reserved
        else .ok ⟨camelCase names.typeName, names.moduleName⟩ := by
  have hsnake := camelCase_snakeCase text
  have hletters : camelCase (camelCase "a_b") ≠ camelCase "a_b" := by decide +kernel
  refine ⟨snakeCase_snakeCase text, hsnake, snakeCase_camelCase_camelCase text, ⟨_, hletters⟩, ?_, ?_,
    ofStem_congr hsnake, fun names h => ofStem_typeName h⟩
  · rw [hsnake]
  · simp only [ofType, fieldName_camelCase_camelCase]

/-- Stems of single letters: `AB` names the module of `a_b`, and `VEC` is refused. -/
theorem spellings_name_module_letters :
    ofStem "a_b" = .ok ⟨"AB", "ab"⟩ ∧ ofStem "AB" = .ok ⟨"Ab", "ab"⟩ ∧
      ofStem "v_e_c" = .ok ⟨"VEC", "vec"⟩ ∧ ofStem "VEC" = .error .reserved := by
  have hab : ofStem "a_b" = .ok ⟨"AB", "ab"⟩ := by decide +kernel
  have hvec : ofStem "v_e_c" = .ok ⟨"VEC", "vec"⟩ := by decide +kernel
  have hcamel : camelCase "AB" = "Ab" := by decide +kernel
  obtain ⟨-, -, -, -, -, -, -, hab'⟩ := spellings_name_module "a_b"
  obtain ⟨-, -, -, -, -, -, -, hvec'⟩ := spellings_name_module "v_e_c"
  have htype := hab' _ hab
  have htype' := hvec' _ hvec
  rw [if_neg (by decide +kernel), hcamel] at htype
  rw [if_pos (by decide +kernel)] at htype'
  exact ⟨hab, htype, hvec, htype'⟩

end TypedTables.Schema
