/-
What the writing of artifacts touches: the module and the manifest of a table have names of their
own, which no other table's artifacts have and no table file has. Both are read back as they were
written (`HasArtifacts`), also behind the writing of the registry module, which has a place of its own
even where a table's module has its name.
-/
import TypedTables.Project.Artifacts
import TypedTables.Proofs.Files.Names
import TypedTables.Proofs.Project.TableFile

namespace TypedTables.Project

open TypedTables.Files TypedTables.Naming TypedTables.Schema TypedTables.Source TypedTables.Text

/-! ## Names -/

/-- The names of the artifacts of a module. -/
def IsArtifact (module name : String) : Prop :=
  name = module ++ ".rs" ∨ name = module ++ ".schema.json"

/-- A manifest and a module have different endings. -/
theorem manifest_ne_module (module other : String) : module ++ ".schema.json" ≠ other ++ ".rs" := by
  intro he
  have hlast := congrArg (fun s => s.toList.getLast?) he
  simp [String.toList_append] at hlast

theorem not_isArtifact_manifest {module other : String} (h : module ≠ other) :
    ¬ IsArtifact other (module ++ ".schema.json") := by
  rintro (he | he)
  · exact manifest_ne_module _ _ he
  · exact h ((String.append_left_inj _).1 he)

theorem not_isArtifact_module {module other : String} (h : module ≠ other) :
    ¬ IsArtifact other (module ++ ".rs") := by
  rintro (he | he)
  · exact h ((String.append_left_inj _).1 he)
  · exact manifest_ne_module _ _ he.symm

theorem ne_registry_manifest (module : String) : module ++ ".schema.json" ≠ "tables.rs" :=
  manifest_ne_module module "tables"

theorem IsArtifact.not_isTableName {module name : String} (h : IsArtifact module name) :
    isTableName name = false := by
  rcases h with rfl | rfl
  · have hname := isTableName_append module "rs" (by decide) (by decide +kernel)
    rwa [String.append_assoc] at hname
  · have hname := isTableName_append (module ++ ".schema") "json" (by decide)
      (by decide +kernel)
    rwa [String.append_assoc, String.append_assoc] at hname

/-! ## Writing -/

theorem touches_writeTable (root : Path) {s : TableSchema} (hs : isIdentifier s.moduleName = true)
    (t : Folder) : Touches (IsArtifact s.moduleName) t (writeTable root s t).2 := by
  unfold writeTable writeText
  refine Touches.bind ((touches_makeFolders _ t).mono fun _ h => h.elim) ?_
  intro _ t'
  refine Touches.bind ?_ ?_
  · exact (touches_writeFile (isFileName_of_identifier hs (by decide)) _ _ t').mono fun _ h => .inl h
  intro _ t'
  refine Touches.bind ?_ fun _ t' => .refl t'
  exact (touches_writeFile (isFileName_of_identifier hs (by decide)) _ _ t').mono fun _ h => .inr h

/-- The module and the manifest of a table are there as they were written. -/
structure HasArtifacts (root : Path) (s : TableSchema) (t : Folder) : Prop where
  module : readBytes t (modulePath root s.moduleName) = .ok (Utf8.encode (tableModule s))
  manifest : readBytes t (manifestPath root s.moduleName) = .ok (Utf8.encode s.manifest)

theorem writeTable_ok {root path : Path} {s : TableSchema} (hs : isIdentifier s.moduleName = true)
    {t t' : Folder} (h : writeTable root s t = (.ok path, t')) :
    path = modulePath root s.moduleName ∧ HasArtifacts root s t' := by
  unfold writeTable at h
  obtain ⟨_, t₁, _, h⟩ := bind_ok h
  obtain ⟨_, t₂, hmodule, h⟩ := bind_ok h
  obtain ⟨_, t₃, hmanifest, h⟩ := bind_ok h
  cases h
  have hnames : IsFileName (s.moduleName ++ ".rs") := isFileName_of_identifier hs (by decide)
  have hnames' : IsFileName (s.moduleName ++ ".schema.json") := isFileName_of_identifier hs (by decide)
  refine ⟨rfl, ?_, readBytes_writeFile hnames' hmanifest⟩
  -- the manifest is written behind the module, under another name
  exact (touches_of_writeFile hnames' hmanifest).readBytes hnames
    (Ne.symm (manifest_ne_module s.moduleName s.moduleName)) (readBytes_writeFile hnames hmodule)

/-- Artifacts stay where no file of their names is touched. -/
theorem HasArtifacts.of_touches {root : Path} {s : TableSchema} {names : String → Prop} {t t' : Folder}
    (h : HasArtifacts root s t) (hs : isIdentifier s.moduleName = true) (ht : Touches names t t')
    (hnames : ∀ name, IsArtifact s.moduleName name → ¬ names name) : HasArtifacts root s t' where
  module := ht.readBytes (isFileName_of_identifier hs (by decide)) (hnames _ (.inl rfl)) h.module
  manifest := ht.readBytes (isFileName_of_identifier hs (by decide)) (hnames _ (.inr rfl)) h.manifest

/-! ## The registry module -/

theorem isFileName_registry : IsFileName "tables.rs" := by constructor <;> decide

theorem isFileName_tables : IsFileName "tables" := by constructor <;> decide

theorem touches_writeRegistry (root : Path) (entries : List TableEntry) (t : Folder) :
    Touches (· = "tables.rs") t (writeRegistry root entries t).2 := by
  unfold writeRegistry writeText
  refine Touches.bind ((touches_makeFolders _ t).mono fun _ h => h.elim) ?_
  intro _ t'
  refine Touches.bind ?_ fun _ t' => .refl t'
  exact touches_writeFile isFileName_registry _ _ t'

/-- A file in the folder of the artifacts is not where the registry module is. -/
theorem place?_artifact_ne {root : Path} {name : String} (hname : IsFileName name) {a : Address}
    (h : place? ((tablesFolder root).join name) = some a) : place? (registryPath root) ≠ some a := by
  intro hregistry
  rw [tablesFolder, place?_join hname, place?_join isFileName_tables] at h
  rw [registryPath, place?_join isFileName_registry] at hregistry
  cases hroot : place? root with
  | none => rw [hroot] at h; cases h
  | some r =>
    rw [hroot] at h hregistry
    simp only [Option.map_some, Option.some.injEq] at h hregistry
    have hlength := congrArg List.length (h.trans hregistry.symm)
    simp only [List.length_append, List.length_singleton] at hlength
    omega

theorem writeRegistry_ok {root path : Path} {entries : List TableEntry} {t t' : Folder}
    (h : writeRegistry root entries t = (.ok path, t')) : path = registryPath root ∧
      readBytes t' (registryPath root) = .ok (Utf8.encode (registryModule entries)) ∧
      ∀ s : TableSchema, isIdentifier s.moduleName = true → HasArtifacts root s t →
        HasArtifacts root s t' := by
  unfold writeRegistry at h
  obtain ⟨_, t₁, hfolders, h⟩ := bind_ok h
  obtain ⟨_, t₂, hwrite, h⟩ := bind_ok h
  cases h
  refine ⟨rfl, readBytes_writeFile isFileName_registry hwrite, ?_⟩
  intro s hs hartifacts
  have htouch := touches_makeFolders root t
  rw [hfolders] at htouch
  have hthere := hartifacts.of_touches hs htouch fun _ _ h => h
  have hkept : ∀ {name : String} {bytes : ByteArray}, IsFileName name →
      readBytes t₁ ((tablesFolder root).join name) = .ok bytes →
        readBytes t' ((tablesFolder root).join name) = .ok bytes :=
    fun hname hr => readBytes_writeFile_of_ne isFileName_registry hwrite
      (fun _ ha => place?_artifact_ne hname ha) hr
  exact ⟨hkept (isFileName_of_identifier hs (by decide)) hthere.module,
    hkept (isFileName_of_identifier hs (by decide)) hthere.manifest⟩

end TypedTables.Project
