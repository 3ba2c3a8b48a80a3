/-
Compiling and binding agree. A compile pass into a source root without manifests, followed by a pass
that binds the same files and skips invalid rows, reports the same tables and the same failing files
in the same order, and leaves one object for each compiled table in an empty store in memory. Main
statement: `compile_bind_agree`.

Both passes make the same claims, as compiling touches no table file. A file with a granted claim
compiles exactly when the manifest of its module is there to bind it against: a table that compiled
has written it and no later one has written over it, and nothing else has put one there.
-/
import TypedTables.Project.Bind
import TypedTables.Proofs.Binding.Rows
import TypedTables.Proofs.Project.Compile
import TypedTables.Proofs.Project.Replacement
import TypedTables.Proofs.Schema.Manifest
import TypedTables.Store.Memory

namespace TypedTables.Project

open TypedTables.Binding TypedTables.Csv TypedTables.Files TypedTables.Naming TypedTables.Schema
open TypedTables.Store TypedTables.Text

/-! ## Binding one file -/

/-- The manifest of a granted claim is read back as it was written. -/
theorem loadManifest_of_readBytes {files : Folder} {root : Path} {names : TableNames} {s : TableSchema}
    (h : readBytes files (manifestPath root names.moduleName) = .ok (Utf8.encode s.manifest)) :
    loadManifest files root names = .ok s := by
  have htext : readText files (manifestPath root names.moduleName) = .ok s.manifest := by
    rw [readText, h]
    simp [Utf8.encode, String.fromUTF8?, s.manifest.isValidUTF8, String.fromUTF8]
  unfold loadManifest
  simp only [htext, TableSchema.ofManifest_manifest]

theorem loadManifest_of_ne_ok {files : Folder} {root : Path} {names : TableNames}
    (h : ∀ bytes, readBytes files (manifestPath root names.moduleName) ≠ .ok bytes) :
    ∃ e, loadManifest files root names = .error e := by
  unfold loadManifest
  cases htext : readText files (manifestPath root names.moduleName) with
  | ok text =>
    obtain ⟨bytes, hb⟩ := readBytes_of_readText htext
    exact absurd hb (h bytes)
  | error e =>
    simp only [htext]
    cases e <;> exact ⟨_, rfl⟩

/-- Skipping invalid rows, a table whose manifest is there is bound. -/
theorem exists_boundFrom {files : Folder} {root : Path} {c : Claim} {names : TableNames}
    {s : TableSchema} {t : Table} (claim : c.2 = .ok names) (manifest : loadManifest files root names = .ok s)
    (read : c.1.table = .ok t) : ∃ d b, BoundFrom files root .skipInvalidRows c names s t d b := by
  obtain ⟨b, hb⟩ := exists_bindRows_skip s.tableName (dynamicRecord s) t.rows
  have rows : bindSchema .skipInvalidRows s t.rows = .ok (⟨b.records⟩, b.rejected) := by
    rw [bindSchema, hb]
    rfl
  exact ⟨⟨b.records⟩, ⟨s.tableName, c.1.path, b.records.length, b.rejected, t.rejected⟩,
    claim, manifest, read, rows, rfl, rfl, rfl, rfl⟩

/-- The outcomes of a file in the two passes: both failed, or one table with one source and one list
of rows left out for their width. -/
inductive SameOutcome : Except CompileError CompiledTable → Except BindTableError BoundTable → Prop where
  | ok {ct : CompiledTable} {b : BoundTable} (table : b.table = ct.schema.tableName)
      (source : b.source = ct.source) (malformed : b.malformed = ct.rejected) :
      SameOutcome (.ok ct) (.ok b)
  | error (e : CompileError) (e' : BindTableError) : SameOutcome (.error e) (.error e')

/-- A file that compiled is bound against its own manifest; one that did not finds none. -/
theorem sameOutcome {files : Folder} {root : Path} {c : Claim} (hc : c.Proper)
    (hok : ∀ ct, compiled root c = .ok ct →
      readBytes files (manifestPath root ct.schema.moduleName) = .ok (Utf8.encode ct.schema.manifest))
    (hnone : ∀ names e, c.2 = .ok names → compiled root c = .error e →
      ∀ bytes, readBytes files (manifestPath root names.moduleName) ≠ .ok bytes) :
    SameOutcome ((compiled root c).mapError .input) (reported files root .skipInvalidRows c) := by
  cases hcompiled : compiled root c with
  | error e =>
    cases hclaim : c.2 with
    | error e' => rw [(Unbound.refused hclaim).reported]; exact .error _ _
    | ok names =>
      obtain ⟨e', hload⟩ := loadManifest_of_ne_ok (hnone names e hclaim hcompiled)
      rw [(Unbound.manifest hclaim hload).reported]
      exact .error _ _
  | ok ct =>
    obtain ⟨names, t, hfrom⟩ := compiled_ok hc hcompiled
    have hload := loadManifest_of_readBytes (hfrom.moduleName ▸ hok ct hcompiled)
    obtain ⟨d, b, hbound⟩ := exists_boundFrom hfrom.claim hload hfrom.table
    rw [hbound.reported]
    exact .ok hbound.name (hbound.source.trans hfrom.source.symm)
      (hbound.malformed.trans hfrom.rejected.symm)

/-! ## Both passes over all files -/

/-- The two reports name the same tables with the same sources and the same rows left out for their
width, and the same failing files, in one order. -/
structure Agree (compiled : Batch CompiledTable CompileError) (bound : BindReport) : Prop where
  tables : bound.done.map (fun t => (t.table, t.source, t.malformed)) =
    compiled.done.map fun t => (t.schema.tableName, t.source, t.rejected)
  failures : bound.failures.map (fun f => (f.table, f.path)) =
    compiled.failures.map fun f => (f.table, f.path)

theorem Agree.add {compiled : Batch CompiledTable CompileError} {bound : BindReport} (f : TableFile)
    {r : Except CompileError CompiledTable} {r' : Except BindTableError BoundTable}
    (h : Agree compiled bound) (hr : SameOutcome r r') : Agree (compiled.add f r) (bound.add f r') := by
  cases hr with
  | ok table source malformed =>
    exact ⟨by simp [Batch.add, h.tables, table, source, malformed], h.failures⟩
  | error e e' => exact ⟨h.tables, by simp [Batch.add, h.failures]⟩

theorem agree_ofOutcomes {claims : List Claim} {r : Claim → Except CompileError CompiledTable}
    {r' : Claim → Except BindTableError BoundTable} (h : ∀ c ∈ claims, SameOutcome (r c) (r' c)) :
    Agree (.ofOutcomes (claims.map fun c => (c.1, r c)))
      (.ofOutcomes (claims.map fun c => (c.1, r' c))) := by
  induction claims with
  | nil => exact ⟨rfl, rfl⟩
  | cons c rest ih =>
    obtain ⟨hc, hrest⟩ := List.forall_mem_cons.1 h
    exact (ih hrest).add c.1 hc

/-! ## The store -/

/-- A store that has one object under each of some names and nothing under any other. -/
structure HoldsOnly (m : Memory) (tables : List String) : Prop where
  one : ∀ name ∈ tables, ∃ object, m.objectsOf name = [object]
  none : ∀ name ∉ tables, m.objectsOf name = []

/-! ## Agreement -/

/-- A source root without the manifest of any table. -/
def HoldsNoManifest (root : Path) (files : Folder) : Prop :=
  ∀ module, isIdentifier module = true → ∀ a, place? (manifestPath root module) = some a →
    files.fileAt? a = none

/-- Where the manifests are of a source root that is a folder at the top. -/
theorem place?_manifestPath {name module : String} (hname : IsFileName name)
    (hmodule : isIdentifier module = true) :
    place? (manifestPath ⟨name⟩ module) = some [name, "tables", module ++ ".schema.json"] := by
  have hroot : Path.parts ⟨name⟩ = [name] := by
    simp [Path.parts, Path.splitSlashes_of_not_mem hname.noSlash, hname.ne_empty]
  have hmanifest : IsFileName (module ++ ".schema.json") := isFileName_of_identifier hmodule (by decide)
  rw [place?, manifestPath, tablesFolder, Path.parts_join hmanifest,
    Path.parts_join (by constructor <;> decide), hroot]
  simp [placeFrom, hname.ne_dot, hname.ne_dots, hmanifest.ne_dot, hmanifest.ne_dots]

theorem holdsNoManifest_of_not_mem {name : String} {files : Folder} (hname : IsFileName name)
    (h : name ∉ files.names) : HoldsNoManifest ⟨name⟩ files := by
  intro module hid a ha
  cases (place?_manifestPath hname hid).symm.trans ha
  exact Folder.fileAt?_cons_of_not_mem _ h

/-- After a compile pass the manifest of a table that did not compile is not there. -/
theorem readBytes_manifest_ne_ok {root : Path} {claims : List Claim} {files files' : Folder} {c : Claim}
    {names : TableNames} {e : InputError} (hproper : ∀ d ∈ claims, Claim.Proper d)
    (hapart : claims.Pairwise Apart) (htouch : Touches (IsWritten root claims) files files')
    (hnone : HoldsNoManifest root files) (hc : c ∈ claims) (hclaim : c.2 = .ok names)
    (hfailed : compiled root c = .error e) (bytes : ByteArray) :
    readBytes files' (manifestPath root names.moduleName) ≠ .ok bytes := by
  have hid : isIdentifier names.moduleName = true := by
    rw [(TableNames.ofStem_cases (hproper c hc names hclaim)).moduleName]
    exact (isName_fieldName _).identifier
  refine htouch.readBytes_ne_ok (isFileName_of_identifier hid (by decide)) ?_ (hnone _ hid)
  rintro (⟨d, hd, dt, hdt, hartifact⟩ | hregistry)
  · have hne := names_ne_of_compiled_error hproper hapart hc hclaim hfailed d hd dt hdt
    exact not_isArtifact_manifest hne.2.symm hartifact
  · exact ne_registry_manifest _ hregistry

theorem nodup_compiled (root : Path) {claims : List Claim} (hproper : ∀ c ∈ claims, Claim.Proper c)
    (hapart : claims.Pairwise Apart) :
    ((Batch.ofOutcomes (claims.map fun c => (c.1, (compiled root c).mapError CompileError.input))).done.map
      fun t => t.schema.tableName).Nodup := by
  rw [Batch.done_ofOutcomes, List.Nodup, List.pairwise_map, List.pairwise_filterMap, List.pairwise_map]
  refine hapart.imp_of_mem ?_
  intro c d hc hd hcd ct hct dt hdt
  exact (moduleName_ne (hproper c hc) (hproper d hd) hcd (ok_of_toOption_mapError hct)
    (ok_of_toOption_mapError hdt)).1

/-- A compile pass over a folder, with no manifest below the source root before it and no write
failing, and the pass that then binds the same tree into an empty store in memory, skipping invalid
rows, agree: the tables bound are the tables compiled, in the same order, with the same sources and
rows left out for their width, and the same files fail in the same order. The store then holds one
object for each of the tables, no two of which have one name, and nothing else. Paths are relative
to the root of the tree: an absolute one leads to nothing (`resolve`). -/
theorem compile_bind_agree {folder root : Path} {files : Folder} (hfiles : files.Ascending)
    (hfolder : isFolder files folder = true) (hnone : HoldsNoManifest root files)
    (hwritten : Written (compileTables folder root files).1) :
    ∃ report files' bound store, compileTables folder root files = (.ok report, files') ∧
      bindTables memoryStore (fun _ => files') folder root .skipInvalidRows Memory.empty =
        (.ok bound, store) ∧
      Agree report.tables bound ∧
      (report.tables.done.map fun t => t.schema.tableName).Nodup ∧
      HoldsOnly store (report.tables.done.map fun t => t.schema.tableName) := by
  obtain ⟨found, hfound⟩ : ∃ found, discover files folder = .ok found := by
    obtain ⟨inside, hinside⟩ := Option.isSome_iff_exists.1 hfolder
    exact ⟨_, by rw [discover, hinside]⟩
  have hproper := claimAll_proper [] found
  have hapart := claimAll_apart [] found
  obtain ⟨report, files', hcompile, hpass⟩ := compileTables_spec hfound hwritten
  have hreplaces := bindRun_replaces files' root .skipInvalidRows (claimAll [] found) Memory.empty
  generalize hrun : Batch.run .input (bindFile memoryStore (fun _ => files') root .skipInvalidRows)
    (claimAll [] found) Memory.empty = run at hreplaces
  obtain ⟨bound, store⟩ := run
  simp only at hreplaces
  have hbound := hreplaces.report_eq
  have hagree : Agree report.tables bound := by
    rw [hpass.batch, hbound]
    refine agree_ofOutcomes ?_
    intro c hc
    refine sameOutcome (hproper c hc) (fun ct hct => (hpass.artifacts c hc ct hct).manifest) ?_
    intro names e hclaim hfailed
    exact readBytes_manifest_ne_ok hproper hapart hpass.touches hnone hc hclaim hfailed
  have hnames : (report.tables.done.map fun t => t.schema.tableName) = bound.done.map fun t => t.table := by
    have htables := congrArg (List.map Prod.fst) hagree.tables
    simpa [List.map_map, Function.comp_def] using htables.symm
  refine ⟨report, files', bound, store, hcompile, ?_, hagree, ?_, ?_, ?_⟩
  · -- compiling touches no table file, so both passes make the same claims
    have hdiscover : discover files' folder = .ok found := by
      rw [discover_of_touches hpass.touches hfiles (fun _ => IsWritten.not_isTableName) hfolder, hfound]
    rw [bindTables, hdiscover]
    simp only [hrun]
  · rw [hpass.batch]; exact nodup_compiled root hproper hapart
  · rw [hnames]
    intro name hname
    obtain ⟨t, ht, rfl⟩ := List.mem_map.1 hname
    exact hreplaces.one ht
  · rw [hnames]
    intro name hname
    have hne : ∀ t ∈ bound.done, t.table ≠ name := by
      intro t ht he
      exact hname (List.mem_map.2 ⟨t, ht, he⟩)
    rw [hreplaces.others hne, Memory.objectsOf_empty]

/-- A file of no valid name, one that is no text and a second one of its table fail; two tables
compile, of which one has a row of another width and the other a row that does not bind. -/
def mixedTree : Folder :=
  .folder "csv" (.file "1st.csv" (Utf8.encode "ID\nint\n") <|
    .file "Bytes.csv" ⟨#[0x49, 0x44, 0xff]⟩ <|
    .file "Items.csv" (Utf8.encode "ID,Kind\nint,enum\n1,Sword\n2\n3,Axe\n") <|
    .folder "more" (.file "bytes.CSV" (Utf8.encode "ID\nint\n") .empty) <|
    .file "tasks.csv" (Utf8.encode "ID,Name\nlong,string\nx,y\n") .empty) .empty

theorem compile_bind_agree_mixed :
    mixedTree.Ascending ∧ isFolder mixedTree ⟨"csv"⟩ = true ∧ HoldsNoManifest ⟨"src"⟩ mixedTree ∧
      Written (compileTables ⟨"csv"⟩ ⟨"src"⟩ mixedTree).1 ∧
      ∃ report files' bound store, compileTables ⟨"csv"⟩ ⟨"src"⟩ mixedTree = (.ok report, files') ∧
        bindTables memoryStore (fun _ => files') ⟨"csv"⟩ ⟨"src"⟩ .skipInvalidRows Memory.empty =
          (.ok bound, store) ∧
        report.tables.done.map (fun t => t.schema.tableName) = ["Items", "Tasks"] ∧
        report.tables.failures.map (fun f => f.table) = ["1st", "Bytes", "bytes"] ∧
        Agree report.tables bound ∧ HoldsOnly store ["Items", "Tasks"] := by
  have hascending : mixedTree.Ascending := by decide +kernel
  have hfolder : isFolder mixedTree ⟨"csv"⟩ = true := by decide +kernel
  have hnone : HoldsNoManifest ⟨"src"⟩ mixedTree :=
    holdsNoManifest_of_not_mem (by constructor <;> decide) (by decide)
  have hfound : discover mixedTree ⟨"csv"⟩ = .ok (walked ⟨"csv"⟩ _) := discover_eq hascending rfl
  have hwritten : Written (compileTables ⟨"csv"⟩ ⟨"src"⟩ mixedTree).1 := by
    rw [compileTables, hfound]
    decide +kernel
  have hnames : (compileTables ⟨"csv"⟩ ⟨"src"⟩ mixedTree).1.toOption.map (fun r =>
      (r.tables.done.map (fun t => t.schema.tableName), r.tables.failures.map (fun f => f.table))) =
        some (["Items", "Tasks"], ["1st", "Bytes", "bytes"]) := by
    rw [compileTables, hfound]
    decide +kernel
  obtain ⟨report, files', bound, store, hcompile, hbind, hagree, -, honly⟩ :=
    compile_bind_agree hascending hfolder hnone hwritten
  rw [hcompile] at hnames
  obtain ⟨hdone, hfailures⟩ := Prod.mk.inj (Option.some.inj hnames)
  exact ⟨hascending, hfolder, hnone, hwritten, report, files', bound, store, hcompile, hbind, hdone,
    hfailures, hagree, hdone ▸ honly⟩

end TypedTables.Project
