/-
Compile passes change the files that they write and no others. The files of one pass, which are the
modules and manifests of the tables compiled and the registry module, are all different, since no two
tables of a pass have modules of one name. None of them is a table file, so a second pass finds what
the first one found, compiles the same and writes over each file what it holds already. Main statement:
`compileTables_again`.
-/
import TypedTables.Proofs.Files.Places
import TypedTables.Proofs.Project.Compile

namespace TypedTables.Project

open TypedTables.Csv TypedTables.Files TypedTables.Naming TypedTables.Schema TypedTables.Source
open TypedTables.Text

/-! ## Written paths -/

/-- The paths of the module and the manifest of a table. -/
def artifactPaths (root : Path) (s : TableSchema) : List Path :=
  [modulePath root s.moduleName, manifestPath root s.moduleName]

/-- The paths that a pass with a report has written. -/
def CompileReport.written (root : Path) (report : CompileReport) : List Path :=
  (report.tables.done.flatMap fun ct => artifactPaths root ct.schema) ++ [registryPath root]

/-- A pass with a report makes one tree of another by its writes alone: every path written leads to a
file of its own, and every other file is as it was. -/
structure CompileReport.OnlyWrites (root : Path) (report : CompileReport) (t t' : Folder) : Prop where
  there : ∀ p ∈ report.written root, ∃ bytes, readBytes t' p = .ok bytes
  apart : (report.written root).Pairwise fun p q => resolve t' p ≠ resolve t' q
  others : ∀ a, (∀ p ∈ report.written root, resolve t' p ≠ .ok a) → t'.fileAt? a = t.fileAt? a

/-! ## What a pass changes -/

theorem changesOnly_writeTable (root : Path) (s : TableSchema) (t : Folder) :
    ChangesOnly (fun a => ∃ p ∈ artifactPaths root s, place? p = some a) t (writeTable root s t).2 := by
  unfold writeTable writeText
  refine ChangesOnly.bind (.of_touches (touches_makeFolders _ t)) ?_
  intro _ t'
  refine ChangesOnly.bind ?_ ?_
  · refine (changesOnly_writeFile _ _ t').mono ?_
    intro a ha
    exact ⟨modulePath root s.moduleName, by simp [artifactPaths], ha⟩
  intro _ t'
  refine ChangesOnly.bind ?_ fun _ t' => .refl t'
  refine (changesOnly_writeFile _ _ t').mono ?_
  intro a ha
  exact ⟨manifestPath root s.moduleName, by simp [artifactPaths], ha⟩

theorem changesOnly_writeRegistry (root : Path) (entries : List TableEntry) (t : Folder) :
    ChangesOnly (fun a => place? (registryPath root) = some a) t (writeRegistry root entries t).2 := by
  unfold writeRegistry writeText
  refine ChangesOnly.bind (.of_touches (touches_makeFolders _ t)) ?_
  intro _ t'
  exact (changesOnly_writeFile _ _ t').bind fun _ t' => .refl t'

/-- A run over claims changes the artifacts of the tables that it compiles, if no write fails. -/
theorem changesOnly_run (root : Path) : ∀ (claims : List Claim) (t : Folder),
    (∀ c ∈ claims, c.Proper) → WritesSucceed (Batch.run .input (compileFile root) claims t).1 →
    ChangesOnly (fun a => ∃ ct ∈ (Batch.run .input (compileFile root) claims t).1.done,
        ∃ p ∈ artifactPaths root ct.schema, place? p = some a)
      t (Batch.run .input (compileFile root) claims t).2
  | [], t, _, _ => .refl t
  | c :: rest, t, hproper, hw => by
    obtain ⟨hc, hrest⟩ := List.forall_mem_cons.1 hproper
    rw [Batch.run] at hw ⊢
    have hstep := runFile_compileStep root hc t
    generalize Batch.runFile .input (compileFile root) c.1 c.2 t = step at hw hstep ⊢
    obtain ⟨outcome, t₁⟩ := step
    obtain ⟨hfile, hw⟩ := hw.of_add
    have ih := changesOnly_run root rest t₁ hrest hw
    cases hstep with
    | failed made => exact ih
    | unwritten made write => exact absurd rfl (hfile _)
    | @written ct _ made write =>
      have htable := changesOnly_writeTable root ct.schema t
      rw [write] at htable
      refine (htable.mono ?_).trans (ih.mono ?_)
      · intro a ha
        exact ⟨ct, List.mem_cons_self .., ha⟩
      · rintro a ⟨dt, hdt, ha⟩
        exact ⟨dt, List.mem_cons_of_mem _ hdt, ha⟩

theorem changesOnly_compileTables {folder root : Path} {t t' : Folder} {report : CompileReport}
    (hw : WritesSucceed report.tables) (h : compileTables folder root t = (.ok report, t')) :
    ChangesOnly (fun a => ∃ p ∈ report.written root, place? p = some a) t t' := by
  unfold compileTables at h
  split at h
  · cases h
  · rename_i found _
    have hrun := changesOnly_run root (claimAll [] found) t (claimAll_proper [] found)
    generalize Batch.run .input (compileFile root) (claimAll [] found) t = run at h hrun
    obtain ⟨batch, t₁⟩ := run
    have hregistry := changesOnly_writeRegistry root (registryEntries batch.done) t₁
    simp only at h hrun hregistry
    split at h
    · cases h
    · rename_i path t₂ hwrite
      cases h
      rw [hwrite] at hregistry
      refine ((hrun hw).mono ?_).trans (hregistry.mono ?_)
      · rintro a ⟨ct, hct, p, hp, ha⟩
        exact ⟨p, List.mem_append_left _ (List.mem_flatMap.2 ⟨ct, hct, hp⟩), ha⟩
      · intro a ha
        exact ⟨registryPath root, List.mem_append_right _ (List.mem_singleton_self _), ha⟩

/-! ## Files of their own -/

/-- Paths that never lead to the same. -/
def ApartPaths (p q : Path) : Prop := ∀ a, place? p = some a → place? q ≠ some a

theorem apartPaths_join {name other : String} (hname : IsFileName name) (hother : IsFileName other)
    (hne : name ≠ other) (p : Path) : ApartPaths (p.join name) (p.join other) := by
  intro a ha hb
  rw [place?_join hname] at ha
  rw [place?_join hother] at hb
  obtain ⟨dir, -, rfl⟩ := Option.map_eq_some_iff.1 ha
  obtain ⟨dir', -, he⟩ := Option.map_eq_some_iff.1 hb
  exact hne (List.singleton_inj.1 (List.append_inj_right' he rfl)).symm

theorem apartPaths_artifacts {root : Path} {s : TableSchema} (hs : isIdentifier s.moduleName = true) :
    (artifactPaths root s).Pairwise ApartPaths := by
  refine List.pairwise_pair.2 ?_
  exact apartPaths_join (isFileName_of_identifier hs (by decide)) (isFileName_of_identifier hs (by decide))
    (manifest_ne_module _ _).symm _

/-- Tables with modules of different names have artifacts of different paths. -/
theorem apartPaths_of_ne {root : Path} {s s' : TableSchema} (hs : isIdentifier s.moduleName = true)
    (hs' : isIdentifier s'.moduleName = true) (hne : s.moduleName ≠ s'.moduleName) :
    ∀ p ∈ artifactPaths root s, ∀ q ∈ artifactPaths root s', ApartPaths p q := by
  have hpath : ∀ {r : TableSchema} {p : Path}, isIdentifier r.moduleName = true →
      p ∈ artifactPaths root r →
        ∃ name, IsArtifact r.moduleName name ∧ IsFileName name ∧ p = (tablesFolder root).join name := by
    intro r p hr hp
    rcases List.mem_pair.1 hp with rfl | rfl
    · exact ⟨_, .inl rfl, isFileName_of_identifier hr (by decide), rfl⟩
    · exact ⟨_, .inr rfl, isFileName_of_identifier hr (by decide), rfl⟩
  intro p hp q hq
  obtain ⟨name, hname, hfile, rfl⟩ := hpath hs hp
  obtain ⟨other, hother, hfile', rfl⟩ := hpath hs' hq
  refine apartPaths_join hfile hfile' ?_ _
  rintro rfl
  rcases hname with rfl | rfl
  · exact not_isArtifact_module hne hother
  · exact not_isArtifact_manifest hne hother

theorem apartPaths_registry {root : Path} {s : TableSchema} (hs : isIdentifier s.moduleName = true) :
    ∀ p ∈ artifactPaths root s, ApartPaths p (registryPath root) := by
  intro p hp a ha
  rcases List.mem_pair.1 hp with rfl | rfl
  · exact place?_artifact_ne (isFileName_of_identifier hs (by decide)) ha
  · exact place?_artifact_ne (isFileName_of_identifier hs (by decide)) ha

/-- The tables that a run over claims compiles have modules of different names. -/
theorem pairwise_done (root : Path) {claims : List Claim} (hproper : ∀ c ∈ claims, Claim.Proper c)
    (hapart : claims.Pairwise Apart) :
    (Batch.ofOutcomes (claims.map fun c =>
      (c.1, (compiled root c).mapError CompileError.input))).done.Pairwise
        fun ct dt => ct.schema.moduleName ≠ dt.schema.moduleName := by
  rw [Batch.done_ofOutcomes, List.filterMap_map, List.pairwise_filterMap]
  refine hapart.imp_of_mem ?_
  intro c d hc hd hcd ct hct dt hdt
  exact (moduleName_ne (hproper c hc) (hproper d hd) hcd (ok_of_toOption_mapError hct)
    (ok_of_toOption_mapError hdt)).2

theorem CompilePass.isIdentifier {root : Path} {claims : List Claim} {t t' : Folder}
    {report : CompileReport} (h : CompilePass root claims t t' report)
    (hproper : ∀ c ∈ claims, Claim.Proper c) {ct : CompiledTable} (hct : ct ∈ report.tables.done) :
    isIdentifier ct.schema.moduleName = true ∧ HasArtifacts root ct.schema t' := by
  rw [h.batch] at hct
  obtain ⟨c, hc, hct⟩ := exists_compiled hct
  obtain ⟨_, _, hfrom⟩ := compiled_ok (hproper c hc) hct
  exact ⟨hfrom.isIdentifier (hproper c hc), h.artifacts c hc ct hct⟩

theorem CompilePass.apartPaths {root : Path} {claims : List Claim} {t t' : Folder}
    {report : CompileReport} (h : CompilePass root claims t t' report)
    (hproper : ∀ c ∈ claims, Claim.Proper c) (hapart : claims.Pairwise Apart) :
    (report.written root).Pairwise ApartPaths := by
  have hdone := pairwise_done root hproper hapart
  rw [← h.batch] at hdone
  refine List.pairwise_append.2 ⟨?_, List.pairwise_singleton .., ?_⟩
  · rw [List.pairwise_flatMap]
    refine ⟨?_, hdone.imp_of_mem ?_⟩
    · intro ct hct
      exact apartPaths_artifacts (h.isIdentifier hproper hct).1
    · intro ct dt hct hdt hne
      exact apartPaths_of_ne (h.isIdentifier hproper hct).1 (h.isIdentifier hproper hdt).1 hne
  · intro p hp q hq
    obtain ⟨ct, hct, hp⟩ := List.mem_flatMap.1 hp
    rw [List.mem_singleton.1 hq]
    exact apartPaths_registry (h.isIdentifier hproper hct).1 p hp

theorem CompilePass.there {root : Path} {claims : List Claim} {t t' : Folder} {report : CompileReport}
    (h : CompilePass root claims t t' report) (hproper : ∀ c ∈ claims, Claim.Proper c) :
    ∀ p ∈ report.written root, ∃ bytes, readBytes t' p = .ok bytes := by
  intro p hp
  rcases List.mem_append.1 hp with hp | hp
  · obtain ⟨ct, hct, hp⟩ := List.mem_flatMap.1 hp
    obtain ⟨-, hartifacts⟩ := h.isIdentifier hproper hct
    rcases List.mem_pair.1 hp with rfl | rfl
    · exact ⟨_, hartifacts.module⟩
    · exact ⟨_, hartifacts.manifest⟩
  · rw [List.mem_singleton.1 hp]
    exact ⟨_, h.registry⟩

theorem exists_resolve {t : Folder} {p : Path} {bytes : ByteArray} (h : readBytes t p = .ok bytes) :
    ∃ a, resolve t p = .ok a := by
  obtain ⟨a, ha, -⟩ := readBytes_ok_iff.1 h
  exact ⟨a, ha⟩

theorem onlyWrites_compileTables {folder root : Path} {t t' : Folder} {claims : List Claim}
    {report : CompileReport} (hproper : ∀ c ∈ claims, Claim.Proper c) (hapart : claims.Pairwise Apart)
    (hw : WritesSucceed report.tables) (h : compileTables folder root t = (.ok report, t'))
    (hpass : CompilePass root claims t t' report) : report.OnlyWrites root t t' := by
  have hthere := hpass.there hproper
  refine ⟨hthere, (hpass.apartPaths hproper hapart).imp_of_mem ?_, ?_⟩
  · intro p q hp hq hpq he
    obtain ⟨bytes, hread⟩ := hthere p hp
    obtain ⟨a, ha⟩ := exists_resolve hread
    exact hpq a (place?_of_resolve ha) (place?_of_resolve (he ▸ ha))
  · intro a ha
    refine (changesOnly_compileTables hw h).files a ?_
    rintro ⟨p, hp, hplace⟩
    obtain ⟨bytes, hread⟩ := hthere p hp
    obtain ⟨b, hb⟩ := exists_resolve hread
    cases hplace.symm.trans (place?_of_resolve hb)
    exact ha p hp hb

/-! ## The second pass -/

/-- Artifacts that are there are written as they are. -/
theorem writeTable_of_hasArtifacts {root : Path} {s : TableSchema} {t : Folder} (ht : t.Ascending)
    (hs : isIdentifier s.moduleName = true) (h : HasArtifacts root s t) :
    writeTable root s t = (.ok (modulePath root s.moduleName), t) := by
  unfold writeTable writeText
  rw [bind_of_ok (makeFolders_of_readBytes (isFileName_of_identifier hs (by decide)) h.module),
    bind_of_ok (writeFile_of_readBytes ht h.module), bind_of_ok (writeFile_of_readBytes ht h.manifest)]
  rfl

theorem writeRegistry_of_readBytes {root : Path} {entries : List TableEntry} {t : Folder}
    (ht : t.Ascending)
    (h : readBytes t (registryPath root) = .ok (Utf8.encode (registryModule entries))) :
    writeRegistry root entries t = (.ok (registryPath root), t) := by
  unfold writeRegistry writeText
  rw [bind_of_ok (makeFolders_of_readBytes isFileName_registry h), bind_of_ok (writeFile_of_readBytes ht h)]
  rfl

/-- A run over claims whose artifacts are all there leaves the tree as it is. -/
theorem run_of_hasArtifacts {root : Path} {t : Folder} (ht : t.Ascending) : ∀ claims : List Claim,
    (∀ c ∈ claims, c.Proper) → (∀ c ∈ claims, ∀ ct, compiled root c = .ok ct → HasArtifacts root ct.schema t) →
    Batch.run .input (compileFile root) claims t =
      (.ofOutcomes (claims.map fun c => (c.1, (compiled root c).mapError .input)), t)
  | [], _, _ => rfl
  | c :: rest, hproper, hthere => by
    obtain ⟨hc, hrest⟩ := List.forall_mem_cons.1 hproper
    obtain ⟨hfirst, hthere⟩ := List.forall_mem_cons.1 hthere
    have ih := run_of_hasArtifacts ht rest hrest hthere
    have hfile : Batch.runFile .input (compileFile root) c.1 c.2 t =
        ((compiled root c).mapError .input, t) := by
      have hstep := runFile_compileStep root hc t
      generalize Batch.runFile .input (compileFile root) c.1 c.2 t = step at hstep ⊢
      obtain ⟨outcome, t₁⟩ := step
      cases hstep with
      | failed made => rw [made]; rfl
      | unwritten made write =>
        obtain ⟨_, _, hfrom⟩ := compiled_ok hc made
        rw [writeTable_of_hasArtifacts ht (hfrom.isIdentifier hc) (hfirst _ made)] at write
        cases write
      | written made write =>
        obtain ⟨_, _, hfrom⟩ := compiled_ok hc made
        rw [writeTable_of_hasArtifacts ht (hfrom.isIdentifier hc) (hfirst _ made)] at write
        obtain ⟨-, rfl⟩ := Prod.mk.inj write
        rw [made]; rfl
    rw [Batch.run, hfile]
    simp only [ih, List.map_cons, Batch.ofOutcomes]

/-- A pass over the tree that it leaves reports the same and leaves it so. -/
theorem CompilePass.again {folder root : Path} {t t' : Folder} {found : List TableFile}
    {report : CompileReport} (h : CompilePass root (claimAll [] found) t t' report)
    (hfound : discover t' folder = .ok found) (ht : t'.Ascending) :
    compileTables folder root t' = (.ok report, t') := by
  have hrun := run_of_hasArtifacts ht (claimAll [] found) (claimAll_proper [] found) h.artifacts
  rw [← h.batch] at hrun
  unfold compileTables
  rw [hfound]
  simp only [hrun, writeRegistry_of_readBytes ht h.registry]
  rw [← h.path]

/-- A pass whose writes succeed changes the modules and manifests of the tables that it compiles and
the registry module, which are files of their own, and nothing else; one that finds no folder
changes nothing. The same pass once more leaves every file as it is and reports the same. Paths are
relative to the root of the tree: an absolute one leads to nothing (`resolve`). -/
theorem compileTables_again {folder root : Path} {files : Folder} (hfiles : files.Ascending)
    (hw : Written (compileTables folder root files).1) :
    (match compileTables folder root files with
      | (.error _, files') => files' = files
      | (.ok report, files') => report.OnlyWrites root files files') ∧
    compileTables folder root (compileTables folder root files).2 =
      compileTables folder root files := by
  cases hfound : discover files folder with
  | error e =>
    have hnone : compileTables folder root files = (.error (.input (.read e)), files) := by
      rw [compileTables, hfound]
    rw [hnone]
    exact ⟨rfl, hnone⟩
  | ok found =>
    obtain ⟨report, files', hcompile, hpass⟩ := compileTables_spec hfound hw
    have hfolder : isFolder files folder = true := by
      cases hinside : folderAt? files folder with
      | none => rw [discover, hinside] at hfound; cases hfound
      | some inside => rw [isFolder, hinside]; rfl
    have hfound' : discover files' folder = .ok found := by
      rw [discover_of_touches hpass.touches hfiles (fun _ => IsWritten.not_isTableName) hfolder, hfound]
    rw [hcompile] at hw ⊢
    exact ⟨onlyWrites_compileTables (claimAll_proper [] found) (claimAll_apart [] found) hw hcompile hpass,
      hpass.again hfound' (hpass.touches.ascending hfiles)⟩

/-- A source root with the module of a table as it was before and that of a table whose file is gone.
Of the two files with the same table the second one does not compile. -/
def staleTree : Folder :=
  .folder "csv" (.file "Items.csv" (Utf8.encode "ID\nint\n1\n") <|
    .file "Skills.csv" (Utf8.encode "ID\nint\n") <|
    .file "skills.csv" (Utf8.encode "ID\nint\n") .empty) <|
  .folder "src" (.folder "tables" (.file "items.rs" (Utf8.encode "before") <|
    .file "monsters.rs" (Utf8.encode "before") .empty) .empty) .empty

theorem compileTables_again_stale :
    staleTree.Ascending ∧ Written (compileTables ⟨"csv"⟩ ⟨"src"⟩ staleTree).1 ∧
      ∃ report files', compileTables ⟨"csv"⟩ ⟨"src"⟩ staleTree = (.ok report, files') ∧
        report.tables.failures.map (fun f => f.table) = ["skills"] ∧
        (report.written ⟨"src"⟩).map Path.text =
          ["src/tables/items.rs", "src/tables/items.schema.json", "src/tables/skills.rs",
            "src/tables/skills.schema.json", "src/tables.rs"] ∧
        report.OnlyWrites ⟨"src"⟩ staleTree files' ∧
        compileTables ⟨"csv"⟩ ⟨"src"⟩ files' = (.ok report, files') := by
  have hascending : staleTree.Ascending := by decide +kernel
  have hfound : discover staleTree ⟨"csv"⟩ = .ok (walked ⟨"csv"⟩ _) := discover_eq hascending rfl
  have hwritten : Written (compileTables ⟨"csv"⟩ ⟨"src"⟩ staleTree).1 := by
    rw [compileTables, hfound]
    decide +kernel
  have hreport : (compileTables ⟨"csv"⟩ ⟨"src"⟩ staleTree).1.toOption.map (fun r =>
      (r.tables.failures.map (fun f => f.table), (r.written ⟨"src"⟩).map Path.text)) =
        some (["skills"], ["src/tables/items.rs", "src/tables/items.schema.json",
          "src/tables/skills.rs", "src/tables/skills.schema.json", "src/tables.rs"]) := by
    rw [compileTables, hfound]
    decide +kernel
  have hagain := compileTables_again hascending hwritten
  rcases hcompile : compileTables ⟨"csv"⟩ ⟨"src"⟩ staleTree with ⟨e | report, files'⟩
  · rw [hcompile] at hreport; cases hreport
  · rw [hcompile] at hwritten hreport hagain
    obtain ⟨hfailures, hpaths⟩ := Prod.mk.inj (Option.some.inj hreport)
    exact ⟨hascending, hwritten, report, files', rfl, hfailures, hpaths, hagain⟩

end TypedTables.Project
