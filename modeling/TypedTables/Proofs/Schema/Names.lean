/-
The names of a built schema can stand in one module of generated code: those of one kind differ from
each other and from all that the module names otherwise, and each is an identifier and no keyword.
Main statement: `build_namesUsable`.

Fields, enum types and variants are claimed along the columns and the literals, so each statement is
an induction over them with the names taken before.
-/
import TypedTables.Proofs.Naming.Identifier
import TypedTables.Proofs.Schema.Build

namespace TypedTables.Schema

open TypedTables.Csv TypedTables.Naming

/-! ## Usable names -/

/-- The enums of a schema, in column order. -/
def TableSchema.enums (s : TableSchema) : List EnumType := s.columns.filterMap Column.enum?

/-- The variants and the texts of an enum differ from each other, and the variants can be used. -/
structure EnumType.NamesUsable (e : EnumType) : Prop where
  variants : (e.literals.map Literal.variant).Nodup
  texts : e.texts.Nodup
  variantNames : ∀ l ∈ e.literals, IsName l.variant

/-- All names of a schema can be used together in one module. -/
structure TableSchema.NamesUsable (s : TableSchema) : Prop where
  fields : (s.columns.map Column.field).Nodup
  enumTypes : (s.enums.map EnumType.typeName).Nodup
  enumTypesNew : ∀ e ∈ s.enums,
    e.typeName ≠ s.tableName ∧ e.typeName ≠ s.recordName ∧ e.typeName ∉ reservedTypes
  enums : ∀ e ∈ s.enums, e.NamesUsable
  fieldNames : ∀ c ∈ s.columns, IsName c.field
  enumTypeNames : ∀ e ∈ s.enums, IsName e.typeName
  tableName : IsName s.tableName
  recordName : IsName s.recordName
  moduleName : IsName s.moduleName

/-! ## Literals -/

theorem fresh_literalsFrom_text : ∀ (texts seen taken : List String),
    Fresh Literal.text seen (literalsFrom seen taken texts)
  | [], seen, _ => .nil _ seen
  | text :: rest, seen, taken => by
    rw [literalsFrom]
    split
    · exact fresh_literalsFrom_text rest seen taken
    · rename_i hnew
      exact (fresh_literalsFrom_text rest (text :: seen) _).cons (by simpa using hnew)

theorem fresh_literalsFrom_variant : ∀ (texts seen taken : List String),
    Fresh Literal.variant taken (literalsFrom seen taken texts)
  | [], _, taken => .nil _ taken
  | text :: rest, seen, taken => by
    rw [literalsFrom]
    split
    · exact fresh_literalsFrom_variant rest seen taken
    · exact (fresh_literalsFrom_variant rest (text :: seen) _).cons (freeName_not_mem _ _ _)

theorem isName_of_mem_literalsFrom {l : Literal} : ∀ {texts seen taken : List String},
    l ∈ literalsFrom seen taken texts → IsName l.variant
  | text :: rest, seen, taken, h => by
    rw [literalsFrom] at h
    split at h
    · exact isName_of_mem_literalsFrom h
    · rcases List.mem_cons.1 h with rfl | h
      · exact isName_freeName taken (isName_typeName text (by decide)) (by simp)
      · exact isName_of_mem_literalsFrom h

theorem literals_namesUsable (type : String) (index : Nat) (rows : List Row) :
    (EnumType.mk type (literals index rows)).NamesUsable where
  variants := (fresh_literalsFrom_variant _ [] []).nodup
  texts := (fresh_literalsFrom_text _ [] []).nodup
  variantNames _ hl := isName_of_mem_literalsFrom hl

/-! ## Enum types -/

theorem claimEnumType_spec {table : String} (column : String) (taken : List String)
    (ht : isIdentifier table = true) :
    (claimEnumType table column taken).1 ∉ taken ∧ IsName (claimEnumType table column taken).1 ∧
      (claimEnumType table column taken).2 = (claimEnumType table column taken).1 :: taken := by
  have hbase : IsName (typeName column "Column") := isName_typeName column (by decide)
  by_cases hc : taken.contains (typeName column "Column") = true
  · simp only [claimEnumType, if_pos hc, claim]
    refine ⟨freeName_not_mem _ _ _, isName_freeName taken ?_ (by simp), trivial⟩
    exact isName_append ht (isNextChar_of_isIdentifier hbase.identifier)
      (exists_not_lower_typeName column ⟨'C', by decide, by decide⟩)
  · simp only [claimEnumType, if_neg hc]
    exact ⟨by simpa using hc, hbase, trivial⟩

/-! ## Columns -/

/-- What holds of columns made while the names in `fields` and `types` were taken. -/
structure ColumnsUsable (fields types : List String) (columns : List Column) : Prop where
  fields : Fresh Column.field fields columns
  fieldNames : ∀ c ∈ columns, IsName c.field
  enumTypes : Fresh EnumType.typeName types (columns.filterMap Column.enum?)
  enumTypeNames : ∀ e ∈ columns.filterMap Column.enum?, IsName e.typeName
  enums : ∀ e ∈ columns.filterMap Column.enum?, e.NamesUsable

namespace ColumnsUsable

variable {fields types : List String} {columns : List Column} {name field : String}

theorem nil (fields types : List String) : ColumnsUsable fields types [] :=
  ⟨.nil _ _, by simp, .nil _ _, by simp, by simp⟩

/-- A column whose field is claimed before those of the others. -/
theorem consScalar (h : ColumnsUsable (field :: fields) types columns) (hf : field ∉ fields)
    (hn : IsName field) (s : Scalar) :
    ColumnsUsable fields types (⟨name, field, .scalar s⟩ :: columns) where
  fields := .cons h.fields hf
  fieldNames := List.forall_mem_cons.2 ⟨hn, h.fieldNames⟩
  enumTypes := h.enumTypes
  enumTypeNames := h.enumTypeNames
  enums := h.enums

/-- An enum column whose field and type are claimed before those of the others. -/
theorem consEnum {e : EnumType} (h : ColumnsUsable (field :: fields) (e.typeName :: types) columns)
    (hf : field ∉ fields) (hn : IsName field) (ht : e.typeName ∉ types) (htn : IsName e.typeName)
    (he : e.NamesUsable) : ColumnsUsable fields types (⟨name, field, .enumeration e⟩ :: columns) := by
  have henums : (⟨name, field, .enumeration e⟩ :: columns : List Column).filterMap Column.enum? =
      e :: columns.filterMap Column.enum? := rfl
  refine ⟨.cons h.fields hf, List.forall_mem_cons.2 ⟨hn, h.fieldNames⟩, ?_, ?_, ?_⟩ <;> rw [henums]
  · exact h.enumTypes.cons ht
  · exact List.forall_mem_cons.2 ⟨htn, h.enumTypeNames⟩
  · exact List.forall_mem_cons.2 ⟨he, h.enums⟩

end ColumnsUsable

theorem columnsFrom_usable {table : String} (ht : isIdentifier table = true) (rows : List Row) :
    ∀ (cells : List (String × String)) (index : Nat) (fields types : List String)
      {columns : List Column}, columnsFrom table rows index fields types cells = .ok columns →
      ColumnsUsable fields types columns
  | [], _, fields, types, _, h => by
    cases h
    exact .nil fields types
  | (name, token) :: rest, index, fields, types, columns, h => by
    -- the name of the field is claimed first, then that of the enum type if there is one
    have hf := freeName_not_mem (fieldName name) "_" fields
    have hn : IsName (freeName (fieldName name) "_" fields) :=
      isName_freeName fields (isName_fieldName name) (List.all_eq_true.1 (by decide))
    simp only [columnsFrom, claim] at h
    split at h
    · cases h
    · split at h
      · obtain ⟨columns', hcols, h⟩ := exists_of_bind_ok h
        cases h
        exact (columnsFrom_usable ht rows rest _ _ _ hcols).consScalar hf hn _
      · obtain ⟨hnew, hname, htaken⟩ := claimEnumType_spec name types ht
        rw [htaken] at h
        obtain ⟨columns', hcols, h⟩ := exists_of_bind_ok h
        cases h
        exact (columnsFrom_usable ht rows rest _ _ _ hcols).consEnum hf hn hnew hname
          (literals_namesUsable _ index rows)

/-! ## Whole schemas -/

theorem isName_recordTypeName {table : String} (h : isIdentifier table = true) :
    IsName (recordTypeName table) :=
  isName_append h (List.all_eq_true.1 (by decide)) ⟨'R', by decide, by decide⟩

/-- The names of a schema are usable as the stem gives them and the columns claim them. -/
theorem Built.namesUsable {stem : String} {header types : List String} {rows : List Row}
    {names : TableNames} {columns : List Column} {s : TableSchema}
    (hb : Built stem header types rows names columns s) : s.NamesUsable := by
  have hnames := TableNames.ofStem_cases hb.named
  have hcols := columnsFrom_usable hnames.identifier rows _ _ _ _ hb.columnsMade
  have hmodule : IsName names.moduleName := by
    rw [hnames.moduleName]; exact isName_fieldName _
  rw [hb.eq]
  refine ⟨hcols.fields.nodup, hcols.enumTypes.nodup, ?_, hcols.enums, hcols.fieldNames,
    hcols.enumTypeNames, ⟨hnames.identifier, hnames.notKeyword⟩,
    isName_recordTypeName hnames.identifier, hmodule⟩
  -- the types are claimed behind the names of the record, the table and the module's own types
  intro e he
  have hnew := hcols.enumTypes.new e he
  simp only [List.mem_cons, not_or] at hnew
  obtain ⟨hrecord, htable, hreserved⟩ := hnew
  exact ⟨htable, hrecord, hreserved⟩

/-- All names of a schema that is built can be used together in one module of generated code. -/
theorem build_namesUsable {stem : String} {header types : List String} {rows : List Row}
    {s : TableSchema} (h : build stem header types rows = .ok s) : s.NamesUsable := by
  obtain ⟨names, columns, hb⟩ := build_cases h
  exact hb.namesUsable

/-- A header whose names need every repair: colliding cases, keywords, a type that the table has
already and a column without a letter. -/
def repairHeader : List String := ["Type", "type", "self", "_"]

/-- Rows whose literals need every repair, a numbered variant that is also written out among them. -/
def repairRows : List Row :=
  [["A", "x", "1", "é"], ["a", " x ", "_1", ""], ["A2", "X", "Self", "ü"]].map (Row.ofCells 3 repairHeader)

theorem build_namesUsable_repairs :
    ∃ s, build "shop" repairHeader ["enum", "enum", "enum", "enum"] repairRows = .ok s ∧
      s.columns.map Column.field = ["type_", "type__2", "self_", "field"] ∧
      s.enums.map (fun e => e.literals.map Literal.variant) =
        [["A", "A2", "A22"], ["X", "X2"], ["_1", "_12", "Self_"], ["Literal", "Literal2"]] ∧
      s.NamesUsable := by
  have hrun : ((build "shop" repairHeader ["enum", "enum", "enum", "enum"] repairRows).toOption.any
      fun s => s.columns.map Column.field == ["type_", "type__2", "self_", "field"] &&
        s.enums.map (fun e => e.literals.map Literal.variant) ==
          [["A", "A2", "A22"], ["X", "X2"], ["_1", "_12", "Self_"], ["Literal", "Literal2"]]) = true := by
    decide +kernel
  cases hb : build "shop" repairHeader ["enum", "enum", "enum", "enum"] repairRows with
  | error e => rw [hb] at hrun; cases hrun
  | ok s =>
    rw [hb] at hrun
    simp only [Except.toOption, Option.any_some, Bool.and_eq_true, beq_iff_eq] at hrun
    exact ⟨s, rfl, hrun.1, hrun.2, build_namesUsable hb⟩

end TypedTables.Schema
