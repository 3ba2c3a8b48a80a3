/-
The manifests below a source root. A compile pass writes the manifests of the tables that it compiles
and leaves all others as they are, also where a write of it fails (`compileTables_manifests`), so the
manifest of a module is that of the table compiled into it last, and nothing else is read when a
table of the module is bound (`HoldsManifests`).
-/
import TypedTables.Proofs.Project.Agreement

namespace TypedTables.Project

open TypedTables.Files TypedTables.Naming TypedTables.Schema TypedTables.Text

/-! ## Manifests that stay -/

/-- No manifest below a source root comes, goes or changes. -/
def KeepsManifests (root : Path) (t t' : Folder) : Prop :=
  ∀ module, isIdentifier module = true → ∀ a, place? (manifestPath root module) = some a →
    t'.fileAt? a = t.fileAt? a

theorem KeepsManifests.refl (root : Path) (t : Folder) : KeepsManifests root t t :=
  fun _ _ _ _ => rfl

theorem KeepsManifests.trans {root : Path} {t t' t'' : Folder} (h : KeepsManifests root t t')
    (h' : KeepsManifests root t' t'') : KeepsManifests root t t'' :=
  fun module hid a ha => (h' module hid a ha).trans (h module hid a ha)

theorem isFileName_manifest {module : String} (h : isIdentifier module = true) :
    IsFileName (module ++ ".schema.json") :=
  isFileName_of_identifier h (by decide)

/-- What is put into the tree beside a source root touches no manifest. -/
theorem KeepsManifests.insert {root name : String} (hroot : IsFileName root) (hne : root ≠ name)
    (e : Entry) (t : Folder) : KeepsManifests ⟨root⟩ t (t.insert name e) := by
  intro module hid a ha
  cases (place?_manifestPath hroot hid).symm.trans ha
  rw [Folder.fileAt?, Folder.fileAt?, Folder.lookup_cons, Folder.lookup_cons, Folder.find?_insert,
    if_neg hne]

/-- The file of a manifest has the manifest's name. -/
theorem exists_dir_of_place? {root : Path} {module : String} (h : isIdentifier module = true)
    {a : Address} (ha : place? (manifestPath root module) = some a) :
    ∃ dir, a = dir ++ [module ++ ".schema.json"] := by
  rw [manifestPath, place?_join (isFileName_manifest h)] at ha
  obtain ⟨dir, -, rfl⟩ := Option.map_eq_some_iff.1 ha
  exact ⟨dir, rfl⟩

theorem fileAt?_of_touches {root : Path} {names : String → Prop} {t t' : Folder} (h : Touches names t t')
    {module : String} (hid : isIdentifier module = true) (hn : ¬ names (module ++ ".schema.json"))
    {a : Address} (ha : place? (manifestPath root module) = some a) : t'.fileAt? a = t.fileAt? a := by
  obtain ⟨dir, rfl⟩ := exists_dir_of_place? hid ha
  exact h.files dir _ hn

/-! ## Compile passes -/

/-- The names of the files that a pass writes to when it compiles some tables: their manifests, and
modules of any name. -/
def IsOutput (tables : List CompiledTable) (name : String) : Prop :=
  (∃ ct ∈ tables, name = ct.schema.moduleName ++ ".schema.json") ∨ ∃ module, name = module ++ ".rs"

theorem not_isOutput_manifest {tables : List CompiledTable} {module : String}
    (h : ∀ ct ∈ tables, ct.schema.moduleName ≠ module) :
    ¬ IsOutput tables (module ++ ".schema.json") := by
  rintro (⟨ct, hct, he⟩ | ⟨other, he⟩)
  · exact h ct hct ((String.append_left_inj _).1 he).symm
  · exact manifest_ne_module _ _ he

/-- What a pass does to the manifests below a source root: those of the tables compiled are written,
and no others. -/
structure WritesManifests (root : Path) (tables : List CompiledTable) (t t' : Folder) : Prop where
  touches : Touches (IsOutput tables) t t'
  written : ∀ ct ∈ tables,
    readBytes t' (manifestPath root ct.schema.moduleName) = .ok (Utf8.encode ct.schema.manifest)

theorem writeTable_error {root : Path} {s : TableSchema} (hs : isIdentifier s.moduleName = true)
    {t t' : Folder} {e : OsError} (h : writeTable root s t = (.error e, t')) :
    Touches (IsOutput []) t t' := by
  unfold writeTable writeText at h
  have hfolders : Touches (IsOutput []) t (makeFolders (tablesFolder root) t).2 :=
    (touches_makeFolders (tablesFolder root) t).mono fun _ h => h.elim
  rcases bind_error h with hmake | ⟨_, t₁, hmake, h⟩
  · rwa [hmake] at hfolders
  rw [hmake] at hfolders
  rcases bind_error h with hmodule | ⟨_, t₂, hmodule, h⟩
  · rwa [writeFile_error hmodule]
  have hwritten : Touches (IsOutput []) t₁ t₂ :=
    (touches_of_writeFile (isFileName_of_identifier hs (by decide)) hmodule).mono
      fun _ hname => .inr ⟨s.moduleName, hname⟩
  rcases bind_error h with hmanifest | ⟨_, t₃, _, h⟩
  · rw [writeFile_error hmanifest]
    exact hfolders.trans hwritten
  · cases h

namespace WritesManifests

variable {root : Path} {tables later : List CompiledTable} {t t' t'' : Folder}

theorem none (h : Touches (IsOutput []) t t') : WritesManifests root [] t t' :=
  ⟨h, fun _ hct => by cases hct⟩

/-- Manifests outlive the writing of those of other modules. -/
theorem append (h : WritesManifests root tables t t') (h' : WritesManifests root later t' t'')
    (hid : ∀ ct ∈ tables, isIdentifier ct.schema.moduleName = true)
    (hapart : ∀ ct ∈ tables, ∀ dt ∈ later, dt.schema.moduleName ≠ ct.schema.moduleName) :
    WritesManifests root (tables ++ later) t t'' where
  touches := by
    refine (h.touches.mono ?_).trans (h'.touches.mono ?_)
    · rintro name (⟨ct, hct, hname⟩ | hmodule)
      · exact .inl ⟨ct, List.mem_append_left _ hct, hname⟩
      · exact .inr hmodule
    · rintro name (⟨ct, hct, hname⟩ | hmodule)
      · exact .inl ⟨ct, List.mem_append_right _ hct, hname⟩
      · exact .inr hmodule
  written := by
    intro ct hct
    rcases List.mem_append.1 hct with hct | hct
    · exact h'.touches.readBytes (isFileName_manifest (hid ct hct))
        (not_isOutput_manifest (hapart ct hct)) (h.written ct hct)
    · exact h'.written ct hct

end WritesManifests

/-- One file of a pass: the manifest of its table is written if the file is compiled, and else none. -/
theorem CompileStep.manifests {root : Path} {c : Claim} (hc : c.Proper) {t t' : Folder}
    {outcome : Except CompileError CompiledTable} (h : CompileStep root c t outcome t') :
    WritesManifests root outcome.toOption.toList t t' ∧
      ∀ ct, outcome = .ok ct → compiled root c = .ok ct := by
  cases h with
  | failed => exact ⟨.none (.refl t), fun _ hct => by cases hct⟩
  | unwritten made write =>
    obtain ⟨_, _, hfrom⟩ := compiled_ok hc made
    exact ⟨.none (writeTable_error (hfrom.isIdentifier hc) write), fun _ hct => by cases hct⟩
  | written made write =>
    obtain ⟨_, _, hfrom⟩ := compiled_ok hc made
    have hid := hfrom.isIdentifier hc
    have htouch := touches_writeTable root hid t
    rw [write] at htouch
    refine ⟨⟨htouch.mono ?_, ?_⟩, ?_⟩
    · rintro name (hmodule | hmanifest)
      · exact .inr ⟨_, hmodule⟩
      · exact .inl ⟨_, List.mem_singleton_self _, hmanifest⟩
    · intro ct hct
      cases List.mem_singleton.1 hct
      exact (writeTable_ok hid write).2.manifest
    · intro ct hct
      cases hct
      exact made

theorem Batch.done_add {α ε : Type} (f : TableFile) (outcome : Except ε α) (b : Batch α ε) :
    (b.add f outcome).done = outcome.toOption.toList ++ b.done := by
  cases outcome <;> rfl

theorem run_manifests (root : Path) : ∀ (claims : List Claim) (t : Folder), (∀ c ∈ claims, c.Proper) →
    claims.Pairwise Apart →
      WritesManifests root (Batch.run .input (compileFile root) claims t).1.done t
        (Batch.run .input (compileFile root) claims t).2 ∧
      ∀ ct ∈ (Batch.run .input (compileFile root) claims t).1.done,
        ∃ c ∈ claims, compiled root c = .ok ct
  | [], t, _, _ => ⟨.none (.refl t), fun _ hct => by cases hct⟩
  | c :: rest, t, hproper, hapart => by
    obtain ⟨hc, hrest⟩ := List.forall_mem_cons.1 hproper
    obtain ⟨hfirst, hapart⟩ := List.pairwise_cons.1 hapart
    rw [Batch.run]
    have hstep := runFile_compileStep root hc t
    generalize Batch.runFile .input (compileFile root) c.1 c.2 t = step at hstep ⊢
    obtain ⟨outcome, t₁⟩ := step
    obtain ⟨hfile, hcompiled⟩ := hstep.manifests hc
    obtain ⟨hlater, hfrom⟩ := run_manifests root rest t₁ hrest hapart
    have hone : ∀ ct ∈ outcome.toOption.toList, compiled root c = .ok ct := by
      intro ct hct
      cases outcome with
      | error e => cases hct
      | ok ct' => cases List.mem_singleton.1 hct; exact hcompiled _ rfl
    simp only [Batch.done_add]
    refine ⟨hfile.append hlater ?_ ?_, ?_⟩
    · intro ct hct
      obtain ⟨_, _, h⟩ := compiled_ok hc (hone ct hct)
      exact h.isIdentifier hc
    · -- no later file is compiled into the same module
      intro ct hct dt hdt
      obtain ⟨d, hd, hdt⟩ := hfrom dt hdt
      exact (moduleName_ne hc (hrest d hd) (hfirst d hd) (hone ct hct) hdt).2.symm
    · intro ct hct
      rcases List.mem_append.1 hct with hct | hct
      · exact ⟨c, List.mem_cons_self .., hone ct hct⟩
      · obtain ⟨d, hd, hdt⟩ := hfrom ct hct
        exact ⟨d, List.mem_cons_of_mem _ hd, hdt⟩

/-- The tables that a compile pass compiles, also when the registry module cannot be written. -/
def compiledIn (folder root : Path) (files : Folder) : List CompiledTable :=
  match discover files folder with
  | .error _ => []
  | .ok found => (Batch.run .input (compileFile root) (claimAll [] found) files).1.done

theorem compiledIn_of_ok {folder root : Path} {files files' : Folder} {report : CompileReport}
    (h : compileTables folder root files = (.ok report, files')) :
    compiledIn folder root files = report.tables.done := by
  unfold compileTables at h
  unfold compiledIn
  cases hfound : discover files folder with
  | error e => rw [hfound] at h; cases h
  | ok found =>
    rw [hfound] at h
    simp only at h ⊢
    generalize Batch.run .input (compileFile root) (claimAll [] found) files = run at h ⊢
    split at h
    · cases h
    · cases h; rfl

/-- A compile pass writes the manifests of the tables that it compiles, whether or not other writes
fail, and each of these tables has the schema of a file that it found. -/
theorem compileTables_manifests (folder root : Path) (files : Folder) :
    WritesManifests root (compiledIn folder root files) files (compileTables folder root files).2 ∧
      ∀ ct ∈ compiledIn folder root files, ∃ found, discover files folder = .ok found ∧
        ∃ c ∈ claimAll [] found, compiled root c = .ok ct := by
  unfold compileTables compiledIn
  cases hfound : discover files folder with
  | error e => exact ⟨.none (.refl files), fun _ hct => by cases hct⟩
  | ok found =>
    obtain ⟨hrun, hfrom⟩ := run_manifests root _ files (claimAll_proper [] found) (claimAll_apart [] found)
    simp only
    generalize Batch.run .input (compileFile root) (claimAll [] found) files = run at hrun hfrom ⊢
    obtain ⟨batch, t⟩ := run
    -- the registry module is a module too, and no manifest
    have hregistry : WritesManifests root [] t (writeRegistry root (registryEntries batch.done) t).2 :=
      .none ((touches_writeRegistry root _ t).mono fun _ hname => .inr ⟨"tables", hname⟩)
    have hid : ∀ ct ∈ batch.done, isIdentifier ct.schema.moduleName = true := by
      intro ct hct
      obtain ⟨c, hc, hcompiled⟩ := hfrom ct hct
      obtain ⟨_, _, h⟩ := compiled_ok (claimAll_proper [] found c hc) hcompiled
      exact h.isIdentifier (claimAll_proper [] found c hc)
    have hpass := hrun.append hregistry hid fun _ _ _ hdt => by cases hdt
    rw [List.append_nil] at hpass
    refine ⟨?_, fun ct hct => ⟨found, rfl, hfrom ct hct⟩⟩
    rcases hwrite : writeRegistry root (registryEntries batch.done) t with ⟨e | path, t'⟩ <;>
      · rw [hwrite] at hpass
        simpa only [hwrite] using hpass

/-! ## The manifests there are -/

/-- The first schema of a module. -/
def latest (past : List TableSchema) (module : String) : Option TableSchema :=
  past.find? fun s => s.moduleName == module

/-- The manifests below a source root are those of some schemas, and of several schemas with one module
that of the first. -/
def HoldsManifests (root : Path) (past : List TableSchema) (t : Folder) : Prop :=
  ∀ module, isIdentifier module = true → ∀ a, place? (manifestPath root module) = some a →
    t.fileAt? a = (latest past module).map fun s => Utf8.encode s.manifest

namespace HoldsManifests

variable {root : Path} {past : List TableSchema} {t t' : Folder}

theorem keeps (h : HoldsManifests root past t) (hkeeps : KeepsManifests root t t') :
    HoldsManifests root past t' :=
  fun module hid a ha => (hkeeps module hid a ha).trans (h module hid a ha)

theorem writes {tables : List CompiledTable} (h : HoldsManifests root past t)
    (hwrites : WritesManifests root tables t t') :
    HoldsManifests root (tables.map CompiledTable.schema ++ past) t' := by
  intro module hid a ha
  rw [latest, List.find?_append]
  cases hfind : (tables.map CompiledTable.schema).find? fun s => s.moduleName == module with
  | none =>
    have hother : ∀ ct ∈ tables, ct.schema.moduleName ≠ module := by
      intro ct hct
      simpa using List.find?_eq_none.1 hfind _ (List.mem_map_of_mem hct)
    rw [fileAt?_of_touches hwrites.touches hid (not_isOutput_manifest hother) ha, h module hid a ha]
    rfl
  | some s =>
    obtain ⟨ct, hct, rfl⟩ := List.mem_map.1 (List.mem_of_find?_eq_some hfind)
    have hmodule : ct.schema.moduleName = module := by simpa using List.find?_some hfind
    obtain ⟨b, hresolve, hfile, -⟩ := readBytes_ok_iff.1 (hwrites.written ct hct)
    rw [hmodule] at hresolve
    cases ha.symm.trans (place?_of_resolve hresolve)
    rw [hfile]
    rfl

/-- A manifest that is read is the one that is there. -/
theorem latest_of_loadManifest (h : HoldsManifests root past t) {names : TableNames}
    (hid : isIdentifier names.moduleName = true) {s : TableSchema}
    (hload : loadManifest t root names = .ok s) : latest past names.moduleName = some s := by
  obtain ⟨bytes, hread⟩ : ∃ bytes, readBytes t (manifestPath root names.moduleName) = .ok bytes := by
    by_contra hnone
    obtain ⟨e, he⟩ := loadManifest_of_ne_ok fun bytes hbytes => hnone ⟨bytes, hbytes⟩
    rw [hload] at he; cases he
  obtain ⟨a, hresolve, hfile, -⟩ := readBytes_ok_iff.1 hread
  rw [h _ hid a (place?_of_resolve hresolve)] at hfile
  obtain ⟨s', hlatest, rfl⟩ := Option.map_eq_some_iff.1 hfile
  cases hload.symm.trans (loadManifest_of_readBytes hread)
  exact hlatest

/-- A manifest that is there is read. -/
theorem loadManifest (h : HoldsManifests root past t) {names : TableNames}
    (hid : isIdentifier names.moduleName = true) {s : TableSchema}
    (hlatest : latest past names.moduleName = some s)
    {a : Address} (hresolve : resolve t (manifestPath root names.moduleName) = .ok a) :
    Project.loadManifest t root names = .ok s := by
  have hfile := h _ hid a (place?_of_resolve hresolve)
  rw [hlatest] at hfile
  exact loadManifest_of_readBytes
    (readBytes_ok_iff.2 ⟨a, hresolve, hfile, Path.not_namesFolder_join (isFileName_manifest hid) _⟩)

end HoldsManifests

end TypedTables.Project
