/-
A compile pass is a map over the files it finds. Each file has one entry in the report, as a compiled
table or as a failure; what a table is compiled to comes from its own file, whatever the others are,
and stands in files that no other table writes to; the registry module has the compiled tables and no
other. Main statement: `compileTables_isolated`.
-/
import TypedTables.Proofs.Project.Compile

namespace TypedTables.Project

open TypedTables.Csv TypedTables.Files TypedTables.Schema TypedTables.Source TypedTables.Text

/-! ## Entries of a report -/

/-- A compiled table is made of the file of a granted claim alone, and its module and its manifest are
those of its schema. -/
structure CompiledAs (root : Path) (files : Folder) (c : Claim) (ct : CompiledTable) : Prop where
  own : ∃ names t, CompiledFrom root c ct names t
  artifacts : HasArtifacts root ct.schema files

/-- A file fails because its claim is refused, or because its own bytes make no schema; then the names
that it owns are not in the registry module. -/
inductive FailedAs (tables : List CompiledTable) (c : Claim) : Failure CompileError → Prop where
  | refused {e : InputError} (claim : c.2 = .error e) :
      FailedAs tables c ⟨c.1.name, c.1.path, .input e⟩
  | broken {names : TableNames} {e : InputError} (claim : c.2 = .ok names)
      (unmade : schemaOf c.1 = .error e)
      (unlisted : ∀ entry ∈ registryEntries tables,
        entry.typeName ≠ names.typeName ∧ entry.moduleName ≠ names.moduleName) :
      FailedAs tables c ⟨c.1.name, c.1.path, .input e⟩

/-- What a compile pass over files made of a tree and reports. -/
structure Isolated (root : Path) (found : List TableFile) (files : Folder) (report : CompileReport) :
    Prop where
  sources : (claimAll [] found).map Prod.fst = found
  distinct : found.Pairwise fun f g => f.address < g.address
  entries : Batch.Splits (CompiledAs root files) (FailedAs report.tables.done) (claimAll [] found)
    report.tables.done report.tables.failures
  path : report.registry = registryPath root
  registry : readBytes files (registryPath root) =
    .ok (Utf8.encode (registryModule (registryEntries report.tables.done)))

/-! ## Failures -/

theorem compiled_error {root : Path} {c : Claim} {e : InputError} (h : compiled root c = .error e) :
    c.2 = .error e ∨ ∃ names, c.2 = .ok names ∧ schemaOf c.1 = .error e := by
  unfold compiled at h
  split at h
  · rename_i e' hclaim
    cases h
    exact .inl hclaim
  · rename_i names hclaim
    split at h
    · rename_i e' hschema
      cases h
      exact .inr ⟨names, hclaim, hschema⟩
    · cases h

/-! ## Isolation -/

theorem CompilePass.isolated {root : Path} {found : List TableFile} {files files' : Folder}
    {report : CompileReport} (h : CompilePass root (claimAll [] found) files files' report)
    (hdistinct : found.Pairwise fun f g => f.address < g.address) :
    Isolated root found files' report := by
  have hproper := claimAll_proper [] found
  refine ⟨claimAll_files [] found, hdistinct, ?_, h.path, h.registry⟩
  rw [h.batch]
  refine Batch.splits_ofOutcomes ?_ ?_
  · intro c hc ct hct
    have hcompiled : compiled root c = .ok ct := by
      cases hr : compiled root c with
      | error e => rw [hr] at hct; cases hct
      | ok ct' => rw [hr] at hct; cases hct; rfl
    exact ⟨compiled_ok (hproper c hc) hcompiled, h.artifacts c hc ct hcompiled⟩
  · intro c hc e he
    cases hr : compiled root c with
    | ok ct => rw [hr] at he; cases he
    | error e' =>
      rw [hr] at he
      cases he
      rcases compiled_error hr with hclaim | ⟨names, hclaim, hschema⟩
      · exact .refused hclaim
      · refine .broken hclaim hschema ?_
        intro entry hentry
        obtain ⟨ct, hct, rfl⟩ := List.mem_map.1 hentry
        obtain ⟨d, hd, hdt⟩ := exists_compiled hct
        exact names_ne_of_compiled_error hproper (claimAll_apart [] found) hc hclaim hr d hd ct hdt

/-- A compile pass whose writes succeed is a map over the files it finds, in order of their
addresses: each file is compiled or has failed, by its claim and its own bytes; every compiled table
has its module and its manifest; and the registry module is that of the compiled tables in order.
Paths are relative to the root of the tree: an absolute one leads to nothing (`resolve`). -/
theorem compileTables_isolated {folder root : Path} {files files' : Folder} {report : CompileReport}
    (hfiles : files.Ascending) (h : compileTables folder root files = (.ok report, files'))
    (hwritten : WritesSucceed report.tables) :
    ∃ found, discover files folder = .ok found ∧ Isolated root found files' report := by
  cases hfound : discover files folder with
  | error e =>
    rw [compileTables, hfound] at h
    cases h
  | ok found =>
    obtain ⟨report', t', hcompile, hpass⟩ := compileTables_spec hfound (by rwa [h])
    rw [h] at hcompile
    cases hcompile
    exact ⟨found, rfl, hpass.isolated (pairwise_discover hfiles hfound)⟩

theorem table_eq_ok {f g : TableFile} (hbytes : f.bytes = g.bytes) {t : Table} (h : f.table = .ok t) :
    g.table = .ok t := by
  unfold TableFile.table TableFile.text at h ⊢
  rw [hbytes] at h
  cases hdecode : Utf8.decode g.bytes with
  | error offset => rw [hdecode] at h; cases h
  | ok text => rw [hdecode] at h; exact h

/-- Two files of one name and the same bytes are compiled to the same table, the same module and the
same manifest, whatever else the two trees hold. -/
theorem CompiledAs.same {root : Path} {files files' : Folder} {c c' : Claim} {ct ct' : CompiledTable}
    (h : CompiledAs root files c ct) (h' : CompiledAs root files' c' ct')
    (hname : c.1.name = c'.1.name) (hbytes : c.1.bytes = c'.1.bytes) :
    ct.schema = ct'.schema ∧ ct.rejected = ct'.rejected ∧
      readBytes files ct.module = readBytes files' ct'.module ∧
      readBytes files (manifestPath root ct.schema.moduleName) =
        readBytes files' (manifestPath root ct'.schema.moduleName) := by
  obtain ⟨_, t, hfrom⟩ := h.own
  obtain ⟨_, t', hfrom'⟩ := h'.own
  cases (table_eq_ok hbytes hfrom.table).symm.trans hfrom'.table
  have hbuilt := hfrom.built
  rw [hname, hfrom'.built] at hbuilt
  have hschema : ct.schema = ct'.schema := (Except.ok.inj hbuilt).symm
  refine ⟨hschema, by rw [hfrom.rejected, hfrom'.rejected], ?_, ?_⟩
  · rw [hfrom.module, hfrom'.module, h.artifacts.module, h'.artifacts.module, hschema]
  · rw [h.artifacts.manifest, h'.artifacts.manifest, hschema]

/-- A table whose module has the name of the registry module, a file of its stem in another case, one
that is no text, one of no valid name, and two tables with rows of another width. -/
def crowdedTree : Folder :=
  .folder "csv" (.file "1st.csv" (Utf8.encode "ID\nint\n") <|
    .file "Bytes.csv" ⟨#[0x49, 0x44, 0xff]⟩ <|
    .file "T_a_b_l_e_s.csv" (Utf8.encode "ID,Name\nint,string\n1\n2,x\n") <|
    .folder "more" (.file "items.csv" (Utf8.encode "ID\nint\n1\n") <|
      .file "t-a-b-l-e-s.CSV" (Utf8.encode "ID\nlong\n") .empty) <|
    .file "tasks.csv" (Utf8.encode "ID,Kind\nlong,enum\n1,x,y\n") .empty) .empty

theorem compileTables_isolated_crowded : ∃ report files' found,
    crowdedTree.Ascending ∧ compileTables ⟨"csv"⟩ ⟨"src"⟩ crowdedTree = (.ok report, files') ∧
      WritesSucceed report.tables ∧
      report.tables.done.map (fun t => t.schema.tableName) = ["TABLES", "Items", "Tasks"] ∧
      report.tables.failures.map (fun f => f.table) = ["1st", "Bytes", "t-a-b-l-e-s"] ∧
      Isolated ⟨"src"⟩ found files' report := by
  have hascending : crowdedTree.Ascending := by decide +kernel
  have hfound : discover crowdedTree ⟨"csv"⟩ = .ok (walked ⟨"csv"⟩ _) := discover_eq hascending rfl
  have hrun : (compileTables ⟨"csv"⟩ ⟨"src"⟩ crowdedTree).1.toOption.any (fun r =>
      decide (∀ f ∈ r.tables.failures, f.error.isWrite = false) &&
        r.tables.done.map (fun t => t.schema.tableName) == ["TABLES", "Items", "Tasks"] &&
        r.tables.failures.map (fun f => f.table) == ["1st", "Bytes", "t-a-b-l-e-s"]) = true := by
    rw [compileTables, hfound]
    decide +kernel
  rcases h : compileTables ⟨"csv"⟩ ⟨"src"⟩ crowdedTree with ⟨e | report, files'⟩
  · rw [h] at hrun; cases hrun
  · rw [h] at hrun
    simp only [Except.toOption, Option.any_some, Bool.and_eq_true, decide_eq_true_eq, beq_iff_eq] at hrun
    obtain ⟨⟨hwritten, hdone⟩, hfailures⟩ := hrun
    obtain ⟨found, -, hisolated⟩ := compileTables_isolated hascending h hwritten
    exact ⟨report, files', found, hascending, rfl, hwritten, hdone, hfailures, hisolated⟩

end TypedTables.Project
