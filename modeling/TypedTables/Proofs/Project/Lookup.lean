/-
Looking up compiled tables. The schema of a compiled table is found by the stem of its file. A type
name is a stem like any other: spelled in camel case again it names the same module, so the schema is
found by the type name as well, unless the new spelling is a keyword or reserved, and nothing is found
then. Main statement: `loadSchema_compiled`.
-/
import TypedTables.Proofs.Project.Manifests
import TypedTables.Proofs.Schema.TableNames

namespace TypedTables.Project

open TypedTables.Files TypedTables.Naming TypedTables.Schema TypedTables.Text

/-! ## Looking up by names -/

theorem loadSchema_of_ofStem {files : Folder} {root : Path} {table : String} {names : TableNames}
    (h : TableNames.ofStem table = .ok names) :
    loadSchema files root table = loadManifest files root names := by
  rw [loadSchema, h]

/-- The manifest of a module is found under every type name. -/
theorem loadManifest_of_written {root : Path} {tables : List CompiledTable} {t t' : Folder}
    (h : WritesManifests root tables t t') {ct : CompiledTable} (hct : ct ∈ tables) (typeName : String) :
    loadManifest t' root ⟨typeName, ct.schema.moduleName⟩ = .ok ct.schema :=
  loadManifest_of_readBytes (h.written ct hct)

/-- Behind a compile pass the schema of every table compiled is found by the stem of its file. By
the type name it is found unless the type name is spelled in camel case as a keyword or as a
reserved type; then the type name is refused. Paths are relative to the root of the tree: an
absolute one leads to nothing (`resolve`). -/
theorem loadSchema_compiled {folder root : Path} {files files' : Folder} {report : CompileReport}
    (h : compileTables folder root files = (.ok report, files')) {ct : CompiledTable}
    (hct : ct ∈ report.tables.done) :
    ∃ found, discover files folder = .ok found ∧ ∃ f ∈ found,
      ct.source = f.path ∧ ct.schema.tableName = camelCase f.name ∧
      loadSchema files' root f.name = .ok ct.schema ∧
      loadSchema files' root ct.schema.tableName =
        if isReservedType (camelCase ct.schema.tableName) then
          .error (.input (.schema (.tableName ct.schema.tableName .reserved)))
        else .ok ct.schema := by
  obtain ⟨hwritten, hfrom⟩ := compileTables_manifests folder root files
  rw [compiledIn_of_ok h, h] at hwritten
  rw [compiledIn_of_ok h] at hfrom
  obtain ⟨found, hfound, c, hc, hcompiled⟩ := hfrom ct hct
  have hproper := claimAll_proper [] found c hc
  obtain ⟨names, t, hmade⟩ := compiled_ok hproper hcompiled
  have hnames := hproper names hmade.claim
  have hload := loadManifest_of_written hwritten hct
  refine ⟨found, hfound, c.1, ?_, hmade.source, ?_, ?_, ?_⟩
  · rw [← claimAll_files [] found]
    exact List.mem_map_of_mem hc
  · rw [hmade.typeName, (TableNames.ofStem_cases hnames).eq, TableNames.ofType]
  · rw [loadSchema_of_ofStem hnames, ← hload names.typeName, hmade.moduleName]
  · rw [hmade.typeName, loadSchema, TableNames.ofStem_typeName hnames]
    split_ifs
    · rfl
    · rw [← hload (camelCase names.typeName), hmade.moduleName]

/-- Two tables of which the type names, `AB` and `VEC`, are spelled `Ab` and `Vec` in camel case. -/
def spelledTree : Folder :=
  .folder "csv" (.file "a_b.csv" (Utf8.encode "ID\nint\n") <|
    .file "v_e_c.csv" (Utf8.encode "ID\nint\n") .empty) .empty

theorem compileTables_spelledTree : ∃ report files' ab vec,
    compileTables ⟨"csv"⟩ ⟨"src"⟩ spelledTree = (.ok report, files') ∧
      report.tables.done = [ab, vec] ∧ ab.schema.tableName = "AB" ∧ vec.schema.tableName = "VEC" := by
  have hfound : discover spelledTree ⟨"csv"⟩ = .ok (walked ⟨"csv"⟩ _) :=
    discover_eq (by decide +kernel) rfl
  have hrun : (compileTables ⟨"csv"⟩ ⟨"src"⟩ spelledTree).1.toOption.map (fun r =>
      r.tables.done.map fun t => t.schema.tableName) = some ["AB", "VEC"] := by
    rw [compileTables, hfound]
    decide +kernel
  rcases h : compileTables ⟨"csv"⟩ ⟨"src"⟩ spelledTree with ⟨e | report, files'⟩
  · rw [h] at hrun; cases hrun
  · rw [h] at hrun
    obtain ⟨ab, rest, hdone, hab, hrest⟩ := List.map_eq_cons_iff.1 (Option.some.inj hrun)
    obtain ⟨vec, none, rfl, hvec, hnone⟩ := List.map_eq_cons_iff.1 hrest
    cases List.map_eq_nil_iff.1 hnone
    exact ⟨report, files', ab, vec, rfl, hdone, hab, hvec⟩

theorem loadSchema_compiled_spelledTree : ∃ report files' ab vec,
    compileTables ⟨"csv"⟩ ⟨"src"⟩ spelledTree = (.ok report, files') ∧ report.tables.done = [ab, vec] ∧
      loadSchema files' ⟨"src"⟩ "AB" = .ok ab.schema ∧
      loadSchema files' ⟨"src"⟩ "VEC" = .error (.input (.schema (.tableName "VEC" .reserved))) := by
  obtain ⟨report, files', ab, vec, h, hdone, hab, hvec⟩ := compileTables_spelledTree
  have hmem : ab ∈ report.tables.done ∧ vec ∈ report.tables.done := by simp [hdone]
  obtain ⟨-, -, -, -, -, -, -, htype⟩ := loadSchema_compiled h hmem.1
  obtain ⟨-, -, -, -, -, -, -, htype'⟩ := loadSchema_compiled h hmem.2
  rw [hab, if_neg (by decide +kernel)] at htype
  rw [hvec, if_pos (by decide +kernel)] at htype'
  exact ⟨report, files', ab, vec, h, hdone, htype, htype'⟩

/-- The table `VEC` is compiled, and there is no schema of that name. -/
theorem compiledTable_not_found_by_typeName : ∃ report files' ct,
    compileTables ⟨"csv"⟩ ⟨"src"⟩ spelledTree = (.ok report, files') ∧ ct ∈ report.tables.done ∧
      ∀ s, loadSchema files' ⟨"src"⟩ ct.schema.tableName ≠ .ok s := by
  obtain ⟨report, files', ab, vec, h, hdone, -, hvec⟩ := compileTables_spelledTree
  have hstem : TableNames.ofStem "VEC" = .error .reserved := by decide +kernel
  refine ⟨report, files', vec, h, by simp [hdone], ?_⟩
  intro s hs
  rw [hvec, loadSchema, hstem] at hs
  cases hs

end TypedTables.Project
