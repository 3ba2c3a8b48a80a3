/-
Binding after any history of edits and compile passes. A file is bound to the table that was last
compiled into the module it claims, under the name of that table, which is the type it claims exactly
when the two have one type name; a file into whose module nothing was compiled is reported as failed.
Main statement: `History.bindTables_latest`. It holds for every store that leaves the manifests
alone, as the store in memory and the one in a file tree do.
-/
import TypedTables.Proofs.Project.Manifests
import TypedTables.Proofs.Store.Tree

namespace TypedTables.Project

open TypedTables.Binding TypedTables.Csv TypedTables.Files TypedTables.Naming TypedTables.Schema
open TypedTables.Store TypedTables.Text

/-! ## Histories -/

/-- A file tree after a history of one source root, with the schemas compiled into it, those of the
last pass first. There is no manifest at the start, and no edit touches one. -/
inductive History (root : Path) : List TableSchema → Folder → Prop where
  | start {files : Folder} (none : HoldsNoManifest root files) : History root [] files
  | edit {past : List TableSchema} {files files' : Folder} (before : History root past files)
      (keeps : KeepsManifests root files files') : History root past files'
  | compile {past : List TableSchema} {files : Folder} (folder : Path)
      (before : History root past files) :
      History root ((compiledIn folder root files).map CompiledTable.schema ++ past)
        (compileTables folder root files).2

theorem History.holdsManifests {root : Path} {past : List TableSchema} {files : Folder}
    (h : History root past files) : HoldsManifests root past files := by
  induction h with
  | start none => exact fun module hid a ha => none module hid a ha
  | edit before keeps ih => exact ih.keeps keeps
  | @compile past files folder before ih => exact ih.writes (compileTables_manifests folder root files).1

/-- A schema with the names of some stem. -/
def IsNamed (s : TableSchema) : Prop :=
  ∃ stem names, TableNames.ofStem stem = .ok names ∧ s.tableName = names.typeName ∧
    s.moduleName = names.moduleName

theorem History.isNamed {root : Path} {past : List TableSchema} {files : Folder}
    (h : History root past files) : ∀ s ∈ past, IsNamed s := by
  induction h with
  | start => simp
  | edit _ _ ih => exact ih
  | @compile past files folder before ih =>
    intro s hs
    rcases List.mem_append.1 hs with hs | hs
    · obtain ⟨ct, hct, rfl⟩ := List.mem_map.1 hs
      obtain ⟨found, -, c, hc, hcompiled⟩ := (compileTables_manifests folder root files).2 ct hct
      have hproper := claimAll_proper [] found c hc
      obtain ⟨names, t, hfrom⟩ := compiled_ok hproper hcompiled
      exact ⟨c.1.name, names, hproper names hfrom.claim, hfrom.typeName, hfrom.moduleName⟩
    · exact ih s hs

/-! ## Stores that leave manifests alone -/

variable {σ : Type}

/-- A store whose operations on the objects of tables keep the manifests that a state of it shows, as
long as the states are valid. -/
structure LeavesManifests (store : ObjectStore σ) (view : σ → Folder) (root : Path) (valid : σ → Prop) :
    Prop where
  delete : ∀ name s, isIdentifier name = true → valid s →
    valid (store.delete name s).2 ∧ KeepsManifests root (view s) (view (store.delete name s).2)
  create : ∀ name object s, isIdentifier name = true → valid s →
    valid (store.create name object s).2 ∧
      KeepsManifests root (view s) (view (store.create name object s).2)

theorem LeavesManifests.replace {store : ObjectStore σ} {view : σ → Folder} {root : Path}
    {valid : σ → Prop} (h : LeavesManifests store view root valid) {name : String}
    (hname : isIdentifier name = true) (object : ByteArray) {s : σ} (hs : valid s) :
    valid (replace store name object s).2 ∧
      KeepsManifests root (view s) (view (replace store name object s).2) := by
  obtain ⟨hvalid, hkeeps⟩ := h.delete name s hname hs
  rcases hholds : store.holds s name with e | there
  · have hask : store.ask name s = (.error e, s) := by rw [ObjectStore.ask, hholds]
    rw [Project.replace, bind_of_error hask]
    exact ⟨hs, .refl root (view s)⟩
  rw [replace_of_holds hholds]
  rcases hdelete : store.delete name s with ⟨e | _, s₁⟩
  · rw [hdelete] at hvalid hkeeps
    rw [bind_of_error hdelete]
    exact ⟨hvalid, hkeeps⟩
  · rw [hdelete] at hvalid hkeeps
    rw [bind_of_ok hdelete]
    obtain ⟨hvalid', hkeeps'⟩ := h.create name object s₁ hname hvalid
    exact ⟨hvalid', hkeeps.trans hkeeps'⟩

/-- The store in memory has no files. -/
theorem leavesManifests_memoryStore (files : Folder) (root : Path) :
    LeavesManifests memoryStore (fun _ => files) root fun _ => True where
  delete _ _ _ _ := ⟨trivial, .refl root files⟩
  create _ _ _ _ _ := ⟨trivial, .refl root files⟩

/-- The name of an object's file is that of no manifest. -/
theorem manifest_ne_fileName {name : String} (h : isIdentifier name = true) (module : String) :
    module ++ ".schema.json" ≠ fileName name := by
  intro he
  have hsplit : (module ++ ".schema") ++ ".json" = name ++ ".json" := by
    rw [String.append_assoc]; exact he
  have hname : module ++ ".schema" = name := (String.append_left_inj _).1 hsplit
  have hdot : '.' ∈ name.toList := by
    rw [← hname, String.toList_append]
    exact List.mem_append_right _ (by decide)
  exact not_mem_of_isIdentifier h (by decide) hdot

theorem leavesManifests_treeStore (folder root : Path) :
    LeavesManifests (treeStore folder) id root Folder.Ascending := by
  have hkeeps : ∀ {name : String} {t t' : Folder}, isIdentifier name = true →
      Touches (· = fileName name) t t' → KeepsManifests root t t' := fun hname h module hid a ha =>
    fileAt?_of_touches h hid (manifest_ne_fileName hname module) ha
  have hfile : ∀ {name : String}, isIdentifier name = true → IsFileName (fileName name) :=
    fun hname => isFileName_of_identifier hname (by decide)
  constructor
  · intro name t hname ht
    have htouch := Tree.touches_delete folder (hfile hname) ht
    exact ⟨htouch.ascending ht, hkeeps hname htouch⟩
  · intro name object t hname ht
    have htouch := Tree.touches_create folder (hfile hname) object t
    exact ⟨htouch.ascending ht, hkeeps hname htouch⟩

/-! ## Binding after a history -/

/-- The table that was last compiled into the module of some names has the type of the names. -/
def LastCompiled (past : List TableSchema) (names : TableNames) : Prop :=
  ∃ s, latest past names.moduleName = some s ∧ s.tableName = names.typeName

/-- A file that is bound to the table last compiled into the module it claims, and put into the store
under the name of that table. -/
inductive BoundToLatest (store : ObjectStore σ) (view : σ → Folder) (root : Path) (policy : Policy)
    (past : List TableSchema) (c : Claim) (b : BoundTable) : Prop where
  | intro {names : TableNames} {s : TableSchema} {t : Table} {d : DynamicTable} {st st' : σ}
      (made : BoundFrom (view st) root policy c names s t d b)
      (latest : latest past names.moduleName = some s)
      (stored : replace store b.table (Utf8.encode d.toValue.compact) st = (.ok (), st'))
      (named : b.table = names.typeName ↔ LastCompiled past names)

/-- Why a file fails to be bound: no table is bound from it, or the store does not take the table. -/
inductive NotBound (store : ObjectStore σ) (view : σ → Folder) (root : Path) (policy : Policy) (c : Claim) :
    BindTableError → Prop where
  | unbound {e : BindTableError} {st : σ} (reason : Unbound (view st) root policy c e) :
      NotBound store view root policy c e
  | unstored {names : TableNames} {s : TableSchema} {t : Table} {d : DynamicTable} {b : BoundTable}
      {e : StoreError} {st st' : σ} (made : BoundFrom (view st) root policy c names s t d b)
      (refused : replace store b.table (Utf8.encode d.toValue.compact) st = (.error e, st')) :
      NotBound store view root policy c (.store e)

/-- A failure that is reported under the stem and the path of its file, with the reason for it. -/
structure FailsToBind (store : ObjectStore σ) (view : σ → Folder) (root : Path) (policy : Policy)
    (c : Claim) (f : Failure BindTableError) : Prop where
  table : f.table = c.1.name
  path : f.path = c.1.path
  reason : NotBound store view root policy c f.error

section

variable {store : ObjectStore σ} {view : σ → Folder} {root : Path} {valid : σ → Prop} {policy : Policy}
  {past : List TableSchema}

/-- One file of a pass: the manifests stay, and the file is bound to the latest table or fails. -/
theorem runFile_bindToLatest (hstore : LeavesManifests store view root valid)
    (hpast : ∀ s ∈ past, IsNamed s) {c : Claim} (hc : c.Proper) {s s' : σ}
    {outcome : Except BindTableError BoundTable} (hvalid : valid s)
    (hholds : HoldsManifests root past (view s))
    (h : Batch.runFile .input (bindFile store view root policy) c.1 c.2 s = (outcome, s')) :
    valid s' ∧ HoldsManifests root past (view s') ∧
      (∀ b, outcome = .ok b → BoundToLatest store view root policy past c b) ∧
      ∀ e, outcome = .error e → NotBound store view root policy c e := by
  obtain ⟨f, claim⟩ := c
  cases claim with
  | error e =>
    cases h
    refine ⟨hvalid, hholds, (fun _ hb => by cases hb), ?_⟩
    intro e' he
    cases he
    have hrefused : Unbound (view s) root policy (f, .error e) (.input e) := .refused rfl
    exact .unbound hrefused
  | ok names =>
    simp only [Batch.runFile] at h
    unfold bindFile at h
    cases hp : prepare (view s) root policy f names with
    | error e =>
      rw [hp] at h
      cases h
      refine ⟨hvalid, hholds, (fun _ hb => by cases hb), ?_⟩
      intro e' he
      cases he
      exact .unbound (prepare_error hp)
    | ok p =>
      obtain ⟨schema, t, d, hmade, hobject⟩ := prepare_ok hp
      have hid : isIdentifier names.moduleName = true := by
        rw [(TableNames.ofStem_cases (hc names rfl)).moduleName]
        exact (isName_fieldName _).identifier
      have hlatest := hholds.latest_of_loadManifest hid hmade.manifest
      have htable : isIdentifier p.report.table = true := by
        obtain ⟨stem, own, hown, hname, -⟩ := hpast schema (List.mem_of_find?_eq_some hlatest)
        rw [hmade.name, hname]
        exact (TableNames.ofStem_cases hown).identifier
      obtain ⟨hvalid', hkeeps⟩ := hstore.replace htable p.object hvalid
      simp only [hp] at h
      rcases hreplace : replace store p.report.table p.object s with ⟨e | _, s₁⟩
      · rw [hreplace] at h hvalid' hkeeps
        cases h
        refine ⟨hvalid', hholds.keeps hkeeps, (fun _ hb => by cases hb), ?_⟩
        intro e' he
        cases he
        exact .unstored hmade (hobject ▸ hreplace)
      · rw [hreplace] at h hvalid' hkeeps
        cases h
        refine ⟨hvalid', hholds.keeps hkeeps, ?_, (fun _ he => by cases he)⟩
        intro b hb
        cases hb
        refine .intro hmade hlatest (hobject ▸ hreplace) ?_
        rw [hmade.name, LastCompiled, hlatest]
        simp

theorem run_bindToLatest (hstore : LeavesManifests store view root valid)
    (hpast : ∀ s ∈ past, IsNamed s) : ∀ (claims : List Claim) (s : σ), (∀ c ∈ claims, c.Proper) →
    valid s → HoldsManifests root past (view s) →
      Batch.Splits (BoundToLatest store view root policy past) (FailsToBind store view root policy) claims
        (Batch.run .input (bindFile store view root policy) claims s).1.done
        (Batch.run .input (bindFile store view root policy) claims s).1.failures
  | [], s, _, _, _ => .nil
  | c :: rest, s, hproper, hvalid, hholds => by
    obtain ⟨hc, hrest⟩ := List.forall_mem_cons.1 hproper
    rw [Batch.run]
    rcases hstep : Batch.runFile .input (bindFile store view root policy) c.1 c.2 s with ⟨outcome, s₁⟩
    obtain ⟨hvalid, hholds, hbound, hfailed⟩ := runFile_bindToLatest hstore hpast hc hvalid hholds hstep
    have ih := run_bindToLatest hstore hpast rest s₁ hrest hvalid hholds
    simp only [hstep]
    cases outcome with
    | ok b => exact .done (hbound b rfl) ih
    | error e => exact .failed ⟨rfl, rfl, hfailed e rfl⟩ ih

/-- After any history of a source root, a pass that binds a folder of table files, if there is one,
has a result or a failure for every file, and a reason for every failure. A file that is bound is
bound to the table that was last compiled into the module it claims, and put into the store under
the name of that table, which is the type it claims exactly when that was the type compiled. A file
into whose module nothing was compiled fails. Paths are relative to the root of the tree: an
absolute one leads to nothing (`resolve`). -/
theorem History.bindTables_latest {files : Folder} (h : History root past files)
    (hstore : LeavesManifests store view root valid) {s : σ} (hview : view s = files) (hvalid : valid s)
    (folder : Path) (policy : Policy) :
    (∃ e, discover files folder = .error e ∧
      bindTables store view folder root policy s = (.error (.input (.read e)), s)) ∨
    ∃ found report s', discover files folder = .ok found ∧
      bindTables store view folder root policy s = (.ok report, s') ∧
      Batch.Splits (BoundToLatest store view root policy past) (FailsToBind store view root policy)
        (claimAll [] found) report.done report.failures ∧
      ∀ c ∈ claimAll [] found, ∀ names, c.2 = .ok names →
        (∀ schema ∈ past, schema.moduleName ≠ names.moduleName) →
          ∃ f ∈ report.failures, FailsToBind store view root policy c f := by
  subst hview
  cases hfound : discover (view s) folder with
  | error e =>
    refine .inl ⟨e, rfl, ?_⟩
    rw [bindTables, hfound]
  | ok found =>
    have hsplits : Batch.Splits (BoundToLatest store view root policy past)
        (FailsToBind store view root policy) (claimAll [] found) _ _ :=
      run_bindToLatest hstore h.isNamed (claimAll [] found) s (claimAll_proper [] found) hvalid
        h.holdsManifests
    refine .inr ⟨found, _, _, rfl, by rw [bindTables, hfound], hsplits, ?_⟩
    intro c hc names hclaim hnone
    rcases hsplits.mem hc with ⟨b, -, hbound⟩ | hfailed
    · -- a bound file has a schema of its module in the past
      obtain ⟨made, latest, -, -⟩ := hbound
      cases hclaim.symm.trans made.claim
      have hmodule := List.find?_some latest
      exact absurd (by simpa using hmodule) (hnone _ (List.mem_of_find?_eq_some latest))
    · exact hfailed

end

/-! ## Files that change their stem -/

/-- The tree in which the files of a folder were compiled and then others put in their place. -/
def replacedFiles (before after : Folder) : Folder :=
  (compileTables ⟨"csv"⟩ ⟨"src"⟩ (.folder "csv" before .empty)).2.insert "csv" (.folder after)

/-- The schemas compiled into it. -/
def replacedPast (before : Folder) : List TableSchema :=
  (compiledIn ⟨"csv"⟩ ⟨"src"⟩ (.folder "csv" before .empty)).map CompiledTable.schema ++ []

theorem history_replacedFiles (before after : Folder) :
    History ⟨"src"⟩ (replacedPast before) (replacedFiles before after) := by
  refine .edit (.compile ⟨"csv"⟩ (.start ?_)) ?_
  · exact holdsNoManifest_of_not_mem (by constructor <;> decide) (by simp [Folder.names])
  · exact .insert (by constructor <;> decide) (by decide) _ _

theorem ascending_folder {inside : Folder} (h : inside.Ascending) :
    (Folder.folder "csv" inside .empty).Ascending :=
  ⟨by simp [Folder.names], h, trivial⟩

theorem discover_folder {before : Folder} (hbefore : before.Ascending) :
    discover (.folder "csv" before .empty) ⟨"csv"⟩ = .ok (walked ⟨"csv"⟩ before) :=
  discover_eq (ascending_folder hbefore) rfl

theorem ascending_replacedFiles {before after : Folder} (hbefore : before.Ascending)
    (hafter : after.Ascending) : (replacedFiles before after).Ascending := by
  have hwrites := (compileTables_manifests ⟨"csv"⟩ ⟨"src"⟩ (.folder "csv" before .empty)).1
  have hcompiled := hwrites.touches.ascending (ascending_folder hbefore)
  exact Folder.Ascending.insert (e := .folder after) hafter hcompiled

theorem discover_replacedFiles {before after : Folder} (hbefore : before.Ascending)
    (hafter : after.Ascending) :
    discover (replacedFiles before after) ⟨"csv"⟩ = .ok (walked ⟨"csv"⟩ after) := by
  refine discover_eq (ascending_replacedFiles hbefore hafter) (folderAt?_eq_some.2 ⟨["csv"], rfl, ?_⟩)
  rw [Folder.lookup_singleton, replacedFiles, Folder.find?_insert, if_pos rfl]

/-- Two tables, of which the first is compiled as `AB` into the module `ab`. -/
def tablesBefore : Folder :=
  .file "a_b.csv" (Utf8.encode "ID\nint\n1\n") <| .file "items.csv" (Utf8.encode "ID\nint\n") .empty

theorem ascending_tablesBefore : tablesBefore.Ascending := by decide +kernel

theorem tableNames_replacedPast :
    (replacedPast tablesBefore).map TableSchema.tableName = ["AB", "Items"] := by
  rw [replacedPast, compiledIn, discover_folder ascending_tablesBefore]
  decide +kernel

/-- In place of the first there is a file that claims the type `Ab` and the module `ab`, and there is
one more table. -/
def tablesAfter : Folder :=
  .file "Ab.csv" (Utf8.encode "ID\nint\n1\n") <| .file "items.csv" (Utf8.encode "ID\nint\n2\n") <|
    .file "orders.csv" (Utf8.encode "ID\nint\n") .empty

theorem bindTables_latest_replaced : ∃ past files found report files',
    History ⟨"src"⟩ past files ∧ LeavesManifests (treeStore ⟨"objects"⟩) id ⟨"src"⟩ Folder.Ascending ∧
      files.Ascending ∧ past.map TableSchema.tableName = ["AB", "Items"] ∧
      discover files ⟨"csv"⟩ = .ok found ∧
      ((claimAll [] found).map fun c => c.2.toOption.map TableNames.moduleName) =
        [some "ab", some "items", some "orders"] ∧
      bindTables (treeStore ⟨"objects"⟩) id ⟨"csv"⟩ ⟨"src"⟩ .skipInvalidRows files =
        (.ok report, files') ∧
      Batch.Splits (BoundToLatest (treeStore ⟨"objects"⟩) id ⟨"src"⟩ .skipInvalidRows past)
        (FailsToBind (treeStore ⟨"objects"⟩) id ⟨"src"⟩ .skipInvalidRows)
        (claimAll [] found) report.done report.failures ∧
      (∃ f ∈ report.failures, f.table = "orders") ∧
      ∃ report' m, bindTables memoryStore (fun _ => files) ⟨"csv"⟩ ⟨"src"⟩ .skipInvalidRows Memory.empty =
          (.ok report', m) ∧
        ∃ f ∈ report'.failures, f.table = "orders" := by
  have hbefore := ascending_tablesBefore
  have hafter : tablesAfter.Ascending := by decide +kernel
  have hstore := leavesManifests_treeStore ⟨"objects"⟩ ⟨"src"⟩
  have hhistory := history_replacedFiles tablesBefore tablesAfter
  have hfiles := ascending_replacedFiles hbefore hafter
  have hfound := discover_replacedFiles hbefore hafter
  -- nothing was compiled into the module of the third file
  have hmodules : ∀ schema ∈ replacedPast tablesBefore, schema.moduleName ≠ "orders" := by
    rw [replacedPast, compiledIn, discover_folder hbefore]
    decide +kernel
  have horders : (claimAll [] (walked ⟨"csv"⟩ tablesAfter)).any (fun c =>
      c.1.name == "orders" && c.2.toOption == some ⟨"Orders", "orders"⟩) = true := by decide +kernel
  obtain ⟨c, hc, hclaim⟩ := List.any_eq_true.1 horders
  rw [Bool.and_eq_true, beq_iff_eq, beq_iff_eq] at hclaim
  have hmemory := leavesManifests_memoryStore (replacedFiles tablesBefore tablesAfter) ⟨"src"⟩
  rcases hhistory.bindTables_latest hstore (id_eq _) hfiles ⟨"csv"⟩ .skipInvalidRows with
    ⟨e, hnone, -⟩ | ⟨found, report, files', hfound', hbind, hsplits, hmissing⟩
  · rw [hfound] at hnone; cases hnone
  cases hfound.symm.trans hfound'
  obtain ⟨f, hf, hfails⟩ := hmissing c hc _ (ok_of_toOption hclaim.2) hmodules
  rcases hhistory.bindTables_latest (s := Memory.empty) hmemory rfl trivial ⟨"csv"⟩ .skipInvalidRows with
    ⟨e, hnone, -⟩ | ⟨found, report', m, hfound', hbind', -, hmissing'⟩
  · rw [hfound] at hnone; cases hnone
  cases hfound.symm.trans hfound'
  obtain ⟨f', hf', hfails'⟩ := hmissing' c hc _ (ok_of_toOption hclaim.2) hmodules
  exact ⟨_, _, _, report, files', hhistory, hstore, hfiles, tableNames_replacedPast, hfound,
    by decide +kernel, hbind, hsplits, ⟨f, hf, hfails.table.trans hclaim.1⟩, report', m, hbind',
    f', hf', hfails'.table.trans hclaim.1⟩

/-- The file that claims the type `Ab`. -/
def renamedFile : TableFile :=
  ⟨"Ab", ⟨"csv/Ab.csv"⟩, ["Ab.csv"], Utf8.encode "ID\nint\n1\n"⟩

/-- After a pass that compiled `AB`, the file that claims the type `Ab` is bound as `AB`: it is in the
report and in the store under a type that it does not claim, and is not reported as failed, although no
table of the type `Ab` was compiled. -/
theorem renamedFile_bound_as_other_type : ∃ past files,
    History ⟨"src"⟩ past files ∧ past.map TableSchema.tableName = ["AB", "Items"] ∧
      discover files ⟨"csv"⟩ = .ok [renamedFile] ∧
      TableNames.ofStem renamedFile.name = .ok ⟨"Ab", "ab"⟩ ∧
      ∃ b m, bindTables memoryStore (fun _ => files) ⟨"csv"⟩ ⟨"src"⟩ .skipInvalidRows Memory.empty =
          (.ok ⟨[b], []⟩, m) ∧
        b.table = "AB" ∧ b.source = renamedFile.path ∧
        (∃ object, m.objectsOf "AB" = [object]) ∧ m.objectsOf "Ab" = [] := by
  have hbefore := ascending_tablesBefore
  have hhistory := history_replacedFiles tablesBefore (.file "Ab.csv" renamedFile.bytes .empty)
  have hwalked : walked ⟨"csv"⟩ (.file "Ab.csv" renamedFile.bytes .empty) = [renamedFile] := by
    have hstem : stem "Ab.csv" = "Ab" := by decide +kernel
    have hpath : Path.joinAll ⟨"csv"⟩ ["Ab.csv"] = ⟨"csv/Ab.csv"⟩ := by decide +kernel
    rw [walked_file _ _ (by decide +kernel), hstem, hpath]
    rfl
  have hafter : (Folder.file "Ab.csv" renamedFile.bytes .empty).Ascending :=
    ⟨by simp [Folder.names], trivial⟩
  have hfound := discover_replacedFiles hbefore hafter
  rw [hwalked] at hfound
  -- the manifest of the module that is claimed is that of `AB`
  obtain ⟨s, hlatest, hname⟩ :
      ∃ s, latest (replacedPast tablesBefore) "ab" = some s ∧ s.tableName = "AB" := by
    refine Option.map_eq_some_iff.1 ?_
    rw [replacedPast, compiledIn, discover_folder hbefore]
    decide +kernel
  generalize hfiles : replacedFiles tablesBefore (.file "Ab.csv" renamedFile.bytes .empty) = files
    at hhistory hfound
  have hresolve : resolve files (manifestPath ⟨"src"⟩ "ab") =
      .ok ["src", "tables", "ab.schema.json"] := by
    rw [← hfiles, replacedFiles, compileTables, discover_folder hbefore]
    decide +kernel
  have hload : loadManifest files ⟨"src"⟩ ⟨"Ab", "ab"⟩ = .ok s :=
    hhistory.holdsManifests.loadManifest (show isIdentifier "ab" = true by decide) hlatest hresolve
  -- so the rows of the file are bound against it, and nothing in them is in the way
  obtain ⟨t, hread⟩ : ∃ t, renamedFile.table = .ok t := ⟨_, rfl⟩
  obtain ⟨d, b, hbound⟩ := exists_boundFrom (c := (renamedFile, .ok ⟨"Ab", "ab"⟩)) rfl hload hread
  have htable : b.table = "AB" := hbound.name.trans hname
  have hreplaces := bindRun_replaces files ⟨"src"⟩ .skipInvalidRows
    [(renamedFile, .ok ⟨"Ab", "ab"⟩)] Memory.empty
  generalize hrun : Batch.run .input (bindFile memoryStore (fun _ => files) ⟨"src"⟩ .skipInvalidRows)
    [(renamedFile, .ok ⟨"Ab", "ab"⟩)] Memory.empty = run at hreplaces
  obtain ⟨report, m⟩ := run
  have hreport : report = ⟨[b], []⟩ := by
    refine hreplaces.report_eq.trans ?_
    rw [List.map_singleton, hbound.reported]
    rfl
  subst hreport
  have hbind : bindTables memoryStore (fun _ => files) ⟨"csv"⟩ ⟨"src"⟩ .skipInvalidRows Memory.empty =
      (.ok ⟨[b], []⟩, m) := by
    have hclaims : claimAll [] [renamedFile] = [(renamedFile, .ok ⟨"Ab", "ab"⟩)] := rfl
    rw [bindTables, hfound]
    simp only [hclaims, hrun]
  refine ⟨_, _, hhistory, tableNames_replacedPast, hfound, rfl, b, m, hbind, htable, hbound.source, ?_, ?_⟩
  · exact htable ▸ hreplaces.one (List.mem_singleton_self b)
  · rw [hreplaces.others (by simp [htable]), Memory.objectsOf_empty]

end TypedTables.Project
