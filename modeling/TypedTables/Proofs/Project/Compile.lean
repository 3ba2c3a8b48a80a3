/-
What a compile pass comes to when no write fails: every file has the outcome that its claim and its
own bytes decide, the artifacts of the tables compiled and the registry module of just these tables
are there, and no other file is touched. Main statement: `compileTables_spec`.
-/
import TypedTables.Project.Compile
import TypedTables.Proofs.Project.Artifacts
import TypedTables.Proofs.Project.Batch
import TypedTables.Proofs.Schema.Build

namespace TypedTables.Project

open TypedTables.Csv TypedTables.Files TypedTables.Naming TypedTables.Schema TypedTables.Source
open TypedTables.Text

/-! ## One file -/

/-- What compiling makes of a file with its claim when its artifacts are written. -/
def compiled (root : Path) (c : Claim) : Except InputError CompiledTable :=
  match c.2 with
  | .error e => .error e
  | .ok _ =>
    match schemaOf c.1 with
    | .error e => .error e
    | .ok (t, s) => .ok ⟨s, c.1.path, modulePath root s.moduleName, t.rejected⟩

/-- A claim that is granted to the names of the file's stem only. -/
def Claim.Proper (c : Claim) : Prop := ∀ names, c.2 = .ok names → TableNames.ofStem c.1.name = .ok names

theorem schemaOf_ok {f : TableFile} {t : Table} {s : TableSchema} (h : schemaOf f = .ok (t, s)) :
    f.table = .ok t ∧ Schema.build f.name t.header t.types t.rows = .ok s := by
  unfold schemaOf at h
  split at h
  · cases h
  · rename_i t' ht
    split at h
    · cases h
    · rename_i s' hs
      cases h
      exact ⟨ht, hs⟩

/-- A compiled table comes from a granted claim and the table in its file: its schema is the one built
of that table and has the names claimed. -/
structure CompiledFrom (root : Path) (c : Claim) (ct : CompiledTable) (names : TableNames) (t : Table) :
    Prop where
  claim : c.2 = .ok names
  table : c.1.table = .ok t
  built : build c.1.name t.header t.types t.rows = .ok ct.schema
  typeName : ct.schema.tableName = names.typeName
  moduleName : ct.schema.moduleName = names.moduleName
  source : ct.source = c.1.path
  module : ct.module = modulePath root ct.schema.moduleName
  rejected : ct.rejected = t.rejected

theorem compiled_ok {root : Path} {c : Claim} {ct : CompiledTable} (hc : c.Proper)
    (h : compiled root c = .ok ct) : ∃ names t, CompiledFrom root c ct names t := by
  unfold compiled at h
  split at h
  · cases h
  · rename_i names hnames
    split at h
    · cases h
    · rename_i t s hs
      cases h
      obtain ⟨htable, hbuild⟩ := schemaOf_ok hs
      obtain ⟨names', columns, hbuilt⟩ := build_cases hbuild
      cases (hc names hnames).symm.trans hbuilt.named
      exact ⟨names, t, hnames, htable, hbuild, by rw [hbuilt.eq], by rw [hbuilt.eq], rfl, rfl, rfl⟩

theorem CompiledFrom.isIdentifier {root : Path} {c : Claim} {ct : CompiledTable} {names : TableNames}
    {t : Table} (h : CompiledFrom root c ct names t) (hc : c.Proper) :
    isIdentifier ct.schema.moduleName = true := by
  rw [h.moduleName, (TableNames.ofStem_cases (hc names h.claim)).moduleName]
  exact (isName_fieldName _).identifier

theorem ok_of_toOption_mapError {α ε ε' : Type} {f : ε → ε'} {r : Except ε α} {a : α}
    (h : (r.mapError f).toOption = some a) : r = .ok a := by
  cases r with
  | error e => cases h
  | ok a' => cases h; rfl

/-- Compiled tables of claims that keep apart have different modules. -/
theorem moduleName_ne {root : Path} {c d : Claim} {ct dt : CompiledTable} (hc : c.Proper)
    (hd : d.Proper) (hcd : Apart c d) (h : compiled root c = .ok ct) (h' : compiled root d = .ok dt) :
    ct.schema.tableName ≠ dt.schema.tableName ∧ ct.schema.moduleName ≠ dt.schema.moduleName := by
  obtain ⟨names, _, hfrom⟩ := compiled_ok hc h
  obtain ⟨names', _, hfrom'⟩ := compiled_ok hd h'
  rw [hfrom.typeName, hfrom.moduleName, hfrom'.typeName, hfrom'.moduleName]
  exact hcd names names' hfrom.claim hfrom'.claim

/-- The names of a file that did not compile are those of no compiled table. -/
theorem names_ne_of_compiled_error {root : Path} {claims : List Claim} {c : Claim} {names : TableNames}
    {e : InputError} (hproper : ∀ d ∈ claims, Claim.Proper d) (hapart : claims.Pairwise Apart)
    (hc : c ∈ claims) (hclaim : c.2 = .ok names) (hfailed : compiled root c = .error e) :
    ∀ d ∈ claims, ∀ ct, compiled root d = .ok ct →
      ct.schema.tableName ≠ names.typeName ∧ ct.schema.moduleName ≠ names.moduleName := by
  intro d hd ct hct
  obtain ⟨names', _, hfrom⟩ := compiled_ok (hproper d hd) hct
  have hne : c ≠ d := by
    rintro rfl
    rw [hfailed] at hct; cases hct
  obtain ⟨htype, hmodule⟩ := hapart.forall hc hd hne names names' hclaim hfrom.claim
  rw [hfrom.typeName, hfrom.moduleName]
  exact ⟨htype.symm, hmodule.symm⟩

/-- Whether an error is that of a write. -/
def CompileError.isWrite : CompileError → Bool
  | .input _ => false
  | .os _ => true

/-- No failure of a pass is that of a write. -/
def WritesSucceed (b : Batch CompiledTable CompileError) : Prop :=
  ∀ f ∈ b.failures, f.error.isWrite = false

theorem WritesSucceed.of_add {f : TableFile} {outcome : Except CompileError CompiledTable}
    {b : Batch CompiledTable CompileError} (h : WritesSucceed (b.add f outcome)) :
    (∀ e, outcome ≠ .error (.os e)) ∧ WritesSucceed b := by
  cases outcome with
  | ok ct =>
    refine ⟨?_, h⟩
    intro e he
    cases he
  | error e =>
    constructor
    · intro e' he
      cases he
      exact absurd (h _ (List.mem_cons_self ..)) (by simp [CompileError.isWrite])
    · intro g hg
      exact h g (List.mem_cons_of_mem _ hg)

/-! ## All files -/

/-- The names of the artifacts of the tables compiled from claims. -/
def IsArtifactOf (root : Path) (claims : List Claim) (name : String) : Prop :=
  ∃ c ∈ claims, ∃ ct, compiled root c = .ok ct ∧ IsArtifact ct.schema.moduleName name

/-- What a run over claims made of a tree. -/
structure CompileRun (root : Path) (claims : List Claim) (t t' : Folder)
    (b : Batch CompiledTable CompileError) : Prop where
  batch : b = .ofOutcomes (claims.map fun c => (c.1, (compiled root c).mapError .input))
  touches : Touches (IsArtifactOf root claims) t t'
  artifacts : ∀ c ∈ claims, ∀ ct, compiled root c = .ok ct → HasArtifacts root ct.schema t'

theorem exists_compiled {root : Path} {claims : List Claim} {ct : CompiledTable}
    (h : ct ∈ (Batch.ofOutcomes (claims.map fun c =>
      (c.1, (compiled root c).mapError CompileError.input))).done) :
    ∃ c ∈ claims, compiled root c = .ok ct := by
  rw [Batch.done_ofOutcomes, List.filterMap_map] at h
  obtain ⟨c, hc, hct⟩ := List.mem_filterMap.1 h
  exact ⟨c, hc, ok_of_toOption_mapError hct⟩

/-- One file of a pass: it makes no table and nothing happens, or its table is written, which may fail
when some of it is there already. -/
inductive CompileStep (root : Path) (c : Claim) (t : Folder) :
    Except CompileError CompiledTable → Folder → Prop where
  | failed {e : InputError} (made : compiled root c = .error e) :
      CompileStep root c t (.error (.input e)) t
  | unwritten {ct : CompiledTable} {e : OsError} {t' : Folder} (made : compiled root c = .ok ct)
      (write : writeTable root ct.schema t = (.error e, t')) : CompileStep root c t (.error (.os e)) t'
  | written {ct : CompiledTable} {t' : Folder} (made : compiled root c = .ok ct)
      (write : writeTable root ct.schema t = (.ok ct.module, t')) : CompileStep root c t (.ok ct) t'

theorem runFile_compileStep (root : Path) {c : Claim} (hc : c.Proper) (t : Folder) :
    CompileStep root c t (Batch.runFile .input (compileFile root) c.1 c.2 t).1
      (Batch.runFile .input (compileFile root) c.1 c.2 t).2 := by
  obtain ⟨f, claim⟩ := c
  cases claim with
  | error e => exact .failed rfl
  | ok names =>
    simp only [Batch.runFile, compileFile]
    cases hs : schemaOf f with
    | error e => exact .failed (by simp only [compiled, hs])
    | ok ts =>
      obtain ⟨table, s⟩ := ts
      have hcompiled : compiled root (f, .ok names) =
          .ok ⟨s, f.path, modulePath root s.moduleName, table.rejected⟩ := by simp only [compiled, hs]
      obtain ⟨_, _, hfrom⟩ := compiled_ok hc hcompiled
      simp only
      rcases hwrite : writeTable root s t with ⟨e | path, t'⟩
      · exact .unwritten hcompiled hwrite
      · obtain ⟨rfl, -⟩ := writeTable_ok (hfrom.isIdentifier hc) hwrite
        exact .written hcompiled hwrite

/-- One file of a run whose writes succeed: its outcome is the one that `compiled` says, it touches
the artifacts of its own table, and they are there. -/
theorem runFile_compile (root : Path) {c : Claim} (hc : c.Proper) (t : Folder)
    (hw : ∀ e, (Batch.runFile .input (compileFile root) c.1 c.2 t).1 ≠ .error (.os e)) :
    (Batch.runFile .input (compileFile root) c.1 c.2 t).1 = (compiled root c).mapError .input ∧
      Touches (IsArtifactOf root [c]) t (Batch.runFile .input (compileFile root) c.1 c.2 t).2 ∧
      ∀ ct, compiled root c = .ok ct →
        HasArtifacts root ct.schema (Batch.runFile .input (compileFile root) c.1 c.2 t).2 := by
  have hstep := runFile_compileStep root hc t
  generalize Batch.runFile .input (compileFile root) c.1 c.2 t = step at hw hstep ⊢
  obtain ⟨outcome, t'⟩ := step
  cases hstep with
  | failed made =>
    rw [made]
    refine ⟨rfl, .refl _, ?_⟩
    intro ct h
    cases h
  | unwritten made write => exact absurd rfl (hw _)
  | written made write =>
    obtain ⟨_, _, hfrom⟩ := compiled_ok hc made
    have hid := hfrom.isIdentifier hc
    have htouch := touches_writeTable root hid t
    rw [write] at htouch
    rw [made]
    refine ⟨rfl, htouch.mono ?_, ?_⟩
    · intro n hn
      exact ⟨c, List.mem_singleton_self c, _, made, hn⟩
    · intro ct hct
      cases hct
      exact (writeTable_ok hid write).2

/-- A run over proper claims that keep apart, of which no write fails. -/
theorem compileRun_spec (root : Path) : ∀ (claims : List Claim) (t : Folder),
    (∀ c ∈ claims, c.Proper) → claims.Pairwise Apart →
    WritesSucceed (Batch.run .input (compileFile root) claims t).1 →
    CompileRun root claims t (Batch.run .input (compileFile root) claims t).2
      (Batch.run .input (compileFile root) claims t).1
  | [], t, _, _, _ => ⟨rfl, .refl t, fun c hc => by cases hc⟩
  | c :: rest, t, hproper, hapart, hw => by
    obtain ⟨hc, hrest⟩ := List.forall_mem_cons.1 hproper
    obtain ⟨hfirst, hapart⟩ := List.pairwise_cons.1 hapart
    rw [Batch.run] at hw ⊢
    have hone := runFile_compile root hc t
    generalize Batch.runFile .input (compileFile root) c.1 c.2 t = step at hw hone ⊢
    obtain ⟨outcome, t₁⟩ := step
    obtain ⟨hfile, hw⟩ := hw.of_add
    obtain ⟨houtcome, htouch, hartifacts⟩ := hone hfile
    have ih := compileRun_spec root rest t₁ hrest hapart hw
    refine ⟨?_, (htouch.mono ?_).trans (ih.touches.mono ?_), List.forall_mem_cons.2 ⟨?_, ih.artifacts⟩⟩
    · rw [List.map_cons, Batch.ofOutcomes, ← ih.batch, ← houtcome]
    · rintro n ⟨d, hd, hn⟩
      exact ⟨d, by rw [List.mem_singleton.1 hd]; exact List.mem_cons_self .., hn⟩
    · rintro n ⟨d, hd, hn⟩
      exact ⟨d, List.mem_cons_of_mem _ hd, hn⟩
    · intro ct hct
      obtain ⟨_, _, hfrom⟩ := compiled_ok hc hct
      refine (hartifacts ct hct).of_touches (hfrom.isIdentifier hc) ih.touches ?_
      -- no later file is compiled into the same module
      rintro name hname ⟨d, hd, dt, hdt, hartifact⟩
      have hne := (moduleName_ne hc (hrest d hd) (hfirst d hd) hct hdt).2
      rcases hname with rfl | rfl
      · exact not_isArtifact_module hne hartifact
      · exact not_isArtifact_manifest hne hartifact

/-! ## Whole passes -/

/-- A compile pass none of whose writes fails. -/
def Written : Except CompileError CompileReport → Prop
  | .error e => e.isWrite = false
  | .ok report => WritesSucceed report.tables

instance : ∀ r, Decidable (Written r)
  | .error e => inferInstanceAs (Decidable (e.isWrite = false))
  | .ok report => inferInstanceAs (Decidable (∀ f ∈ report.tables.failures, f.error.isWrite = false))

/-- The names that a compile pass may write to. -/
def IsWritten (root : Path) (claims : List Claim) (name : String) : Prop :=
  IsArtifactOf root claims name ∨ name = "tables.rs"

theorem IsWritten.not_isTableName {root : Path} {claims : List Claim} {name : String}
    (h : IsWritten root claims name) : isTableName name = false := by
  rcases h with ⟨c, -, ct, -, hartifact⟩ | rfl
  · exact hartifact.not_isTableName
  · exact isTableName_append "tables" "rs" (by decide) (by decide +kernel)

theorem claimAll_proper (owners : Owners) (found : List TableFile) :
    ∀ c ∈ claimAll owners found, Claim.Proper c :=
  fun _ hc _ h => (claimAll_ok hc h).1

/-- What a compile pass over claims made of a tree and reports when no write failed. -/
structure CompilePass (root : Path) (claims : List Claim) (t t' : Folder) (report : CompileReport) :
    Prop where
  batch : report.tables = .ofOutcomes (claims.map fun c => (c.1, (compiled root c).mapError .input))
  touches : Touches (IsWritten root claims) t t'
  artifacts : ∀ c ∈ claims, ∀ ct, compiled root c = .ok ct → HasArtifacts root ct.schema t'
  path : report.registry = registryPath root
  registry : readBytes t' (registryPath root) =
    .ok (Utf8.encode (registryModule (registryEntries report.tables.done)))

theorem compileTables_spec {folder root : Path} {files : Folder} {found : List TableFile}
    (hfound : discover files folder = .ok found)
    (hwritten : Written (compileTables folder root files).1) :
    ∃ report files', compileTables folder root files = (.ok report, files') ∧
      CompilePass root (claimAll [] found) files files' report := by
  have hproper := claimAll_proper [] found
  have hspec := compileRun_spec root (claimAll [] found) files hproper (claimAll_apart [] found)
  unfold compileTables at hwritten ⊢
  rw [hfound] at hwritten ⊢
  simp only at hwritten ⊢
  generalize Batch.run .input (compileFile root) (claimAll [] found) files = run at *
  obtain ⟨batch, t⟩ := run
  have htouch := touches_writeRegistry root (registryEntries batch.done) t
  simp only at hwritten ⊢
  rcases hregistry : writeRegistry root (registryEntries batch.done) t with ⟨e | path, files'⟩
  · rw [hregistry] at hwritten
    cases hwritten
  · rw [hregistry] at hwritten htouch
    have hrun := hspec hwritten
    obtain ⟨rfl, hread, hkept⟩ := writeRegistry_ok hregistry
    refine ⟨_, files', rfl, hrun.batch,
      (hrun.touches.mono fun _ => .inl).trans (htouch.mono fun _ => .inr), ?_, rfl, hread⟩
    -- the artifacts outlive the writing of the registry
    intro c hc ct hct
    obtain ⟨_, _, hfrom⟩ := compiled_ok (hproper c hc) hct
    exact hkept _ (hfrom.isIdentifier (hproper c hc)) (hrun.artifacts c hc ct hct)

end TypedTables.Project
