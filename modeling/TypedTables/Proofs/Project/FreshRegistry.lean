/-
Binding into the store in a folder of the file tree, and what a fresh registry finds there afterwards.
A file that fails changes no file: only the taking out of an object could have changed one by then,
and behind that nothing fails. A file that is bound changes the file of its table's object alone. So
after a pass the registry answers for a table with the object that was bound last, or counts it among
its copies in folders below. Main statement: `bindTables_get`.

The path of the store must not be empty and no name of a bound table may have a slash. The store
creates an object at the path that its name makes, but looks for objects only below a folder that its
own path leads to, and by the names of files (`boundTable_not_found`).
-/
import TypedTables.Proofs.Files.Places
import TypedTables.Proofs.Project.Agreement
import TypedTables.Proofs.Registry.Copies
import TypedTables.Proofs.Store.Agreement

namespace TypedTables.Project

open TypedTables.Binding TypedTables.Csv TypedTables.Files TypedTables.Registry TypedTables.Schema
open TypedTables.Store TypedTables.Text

variable {objects root : Path} {policy : Policy} {t t' : Folder} {name : String} {object : ByteArray}

/-! ## Replacing an object -/

theorem parts_fileName_ne_nil (name : String) : (Files.Path.mk (fileName name)).parts ≠ [] :=
  Files.Path.parts_ne_nil (c := 'n') (by simp [fileName]) (by decide)

/-- Where nothing is at the place of an object, it is created there. -/
theorem create_of_resolve {a : Address} (hresolve : resolve t (Tree.pathFor objects name) = .ok a)
    (hnone : t.lookup a = none) (hfile : namesFolder (Tree.pathFor objects name) = false)
    (object : ByteArray) :
    (treeStore objects).create name object t = (.ok (), t.put (.file object) a) := by
  have hfree : pathExists t (Tree.pathFor objects name) = false := by
    simp only [pathExists, entryAt, hresolve, hnone]
    rfl
  have hfolders : makeFolders objects t = (.ok (), t) :=
    makeFolders_of_resolve_join (parts_fileName_ne_nil name) hresolve
  have hwrite : writeFile (Tree.pathFor objects name) object t = (.ok (), t.put (.file object) a) := by
    simp only [writeFile, change, written, hresolve, hfile, hnone, Bool.false_eq_true, if_false]
  refine (Tree.create_of_free hfree object).trans (Tree.files_of_ok ?_)
  rw [bind_of_ok hfolders]
  exact hwrite

theorem replace_of_resolve {a : Address} (hresolve : resolve t (Tree.pathFor objects name) = .ok a)
    (hnone : t.lookup a = none) (hfile : namesFolder (Tree.pathFor objects name) = false)
    (object : ByteArray) :
    replace (treeStore objects) name object t = (.ok (), t.put (.file object) a) := by
  have hcontains : Tree.contains objects t name = false := by
    simp only [Tree.contains, isFile, entryAt, hresolve, hnone]
  have hdelete : (treeStore objects).delete name t = (.ok (), t) := Tree.delete_of_free hcontains
  rw [replace_of_holds rfl, bind_of_ok hdelete]
  exact create_of_resolve hresolve hnone hfile object

/-- An object that is there is always replaced. -/
theorem exists_replace_of_contains (ht : t.Ascending) (h : Tree.contains objects t name = true)
    (object : ByteArray) : ∃ t', replace (treeStore objects) name object t = (.ok (), t') := by
  obtain ⟨bytes, hread⟩ := isFile_iff.1 h
  obtain ⟨_, _, _, hfile⟩ := readBytes_ok_iff.1 hread
  obtain ⟨a, t₁, hremove, hresolve, hnone, -⟩ := removeFile_of_readBytes ht hread
  have hdelete : (treeStore objects).delete name t = (.ok (), t₁) :=
    (Tree.delete_of_contains h).trans (Tree.files_of_ok hremove)
  refine ⟨t₁.put (.file object) a, ?_⟩
  rw [replace_of_holds rfl, bind_of_ok hdelete]
  exact create_of_resolve hresolve hnone hfile object

/-- Where an object cannot be replaced no file is changed. -/
theorem changesOnly_of_replace_error {e : StoreError} (ht : t.Ascending)
    (h : replace (treeStore objects) name object t = (.error e, t')) :
    ChangesOnly (fun _ => False) t t' := by
  cases hcontains : Tree.contains objects t name with
  | true =>
    obtain ⟨_, hreplace⟩ := exists_replace_of_contains ht hcontains object
    rw [hreplace] at h; cases h
  | false =>
    have hdelete : (treeStore objects).delete name t = (.ok (), t) := Tree.delete_of_free hcontains
    rw [replace_of_holds rfl, bind_of_ok hdelete] at h
    change Tree.create objects name object t = _ at h
    cases htaken : pathExists t (Tree.pathFor objects name) with
    | true =>
      rw [Tree.create_of_taken htaken] at h
      cases h
      exact .refl t
    | false =>
      rw [Tree.create_of_free htaken] at h
      have hmade : ChangesOnly (fun _ => False) t (makeFolders objects t).2 :=
        .of_touches (touches_makeFolders objects t)
      obtain ⟨_, -, hr⟩ | ⟨_, hfailed, -⟩ := Tree.files_cases h
      · cases hr
      -- folders may have been made, and the write that fails leaves them so
      rcases bind_error hfailed with hfolders | ⟨_, t₁, hfolders, hwrite⟩
      · rwa [hfolders] at hmade
      · rw [hfolders] at hmade
        rwa [writeFile_error hwrite]

/-- Taking out the object of a name changes its file. -/
theorem changesOnly_delete (ht : t.Ascending) (objects : Path) (name : String) :
    ChangesOnly (fun a => place? (Tree.pathFor objects name) = some a) t
      ((treeStore objects).delete name t).2 := by
  change ChangesOnly _ t (Tree.delete objects name t).2
  cases hcontains : Tree.contains objects t name with
  | false =>
    rw [Tree.delete_of_free hcontains]
    exact .refl t
  | true =>
    obtain ⟨bytes, hread⟩ := isFile_iff.1 hcontains
    obtain ⟨a, t₁, hremove, hresolve, -, hchanges⟩ := removeFile_of_readBytes ht hread
    rw [Tree.delete_of_contains hcontains, Tree.files_of_ok hremove]
    refine hchanges.mono ?_
    rintro b rfl
    exact place?_of_resolve hresolve

/-- A new object is in its file, and no other file is changed. -/
theorem create_ok (hname : IsFileName (fileName name))
    (h : (treeStore objects).create name object t = (.ok (), t')) :
    readBytes t' (Tree.pathFor objects name) = .ok object ∧
      ChangesOnly (fun a => place? (Tree.pathFor objects name) = some a) t t' := by
  change Tree.create objects name object t = _ at h
  cases htaken : pathExists t (Tree.pathFor objects name) with
  | true => rw [Tree.create_of_taken htaken] at h; cases h
  | false =>
    rw [Tree.create_of_free htaken] at h
    obtain ⟨_, hmade, -⟩ | ⟨_, -, hr⟩ := Tree.files_cases h
    · obtain ⟨_, t₁, hfolders, hwrite⟩ := bind_ok hmade
      have hfirst : ChangesOnly (fun a => place? (Tree.pathFor objects name) = some a) t
          (makeFolders objects t).2 := .of_touches (touches_makeFolders objects t)
      have hsecond := changesOnly_writeFile (objects.join (fileName name)) object t₁
      rw [hfolders] at hfirst
      rw [Tree.pathFor] at hwrite
      rw [hwrite] at hsecond
      exact ⟨readBytes_writeFile hname hwrite, hfirst.trans hsecond⟩
    · cases hr

/-- An object that is replaced is in its file, and no other file is changed. -/
theorem replace_ok (ht : t.Ascending) (hname : IsFileName (fileName name))
    (h : replace (treeStore objects) name object t = (.ok (), t')) :
    readBytes t' (Tree.pathFor objects name) = .ok object ∧
      ChangesOnly (fun a => place? (Tree.pathFor objects name) = some a) t t' := by
  rw [replace_of_holds rfl] at h
  obtain ⟨_, t₁, hdelete, hcreate⟩ := bind_ok h
  have hdeleted := changesOnly_delete ht objects name
  rw [hdelete] at hdeleted
  obtain ⟨hread, hcreated⟩ := create_ok hname hcreate
  exact ⟨hread, hdeleted.trans hcreated⟩

/-! ## One file -/

/-- What the binding of one file does to the tree, and the object that it stores with its name. A file
that fails changes none and stores nothing; otherwise the table bound is in the file of its name in the
folder of the store, and every other file is as it was. -/
inductive TreeStep (objects root : Path) (policy : Policy) (c : Claim) (t : Folder) :
    Except BindTableError BoundTable → List (String × ByteArray) → Folder → Prop where
  | failed {e : BindTableError} {t' : Folder} (kept : ChangesOnly (fun _ => False) t t') :
      TreeStep objects root policy c t (.error e) [] t'
  | bound {names : TableNames} {s : TableSchema} {rows : Csv.Table} {d : DynamicTable} {b : BoundTable}
      {dir : Address} {t' : Folder} (made : BoundFrom t root policy c names s rows d b)
      (place : resolve t' objects = .ok dir) (folder : t'.HasFolder dir)
      (stored : t'.fileAt? (dir ++ [fileName b.table]) = some (Utf8.encode d.toValue.compact))
      (others : ChangesOnly (fun a => a = dir ++ [fileName b.table]) t t') :
      TreeStep objects root policy c t (.ok b) [(b.table, Utf8.encode d.toValue.compact)] t'

theorem isFileName_fileName (h : '/' ∉ name.toList) : IsFileName (fileName name) where
  ne_empty := by simp [fileName]
  noSlash := by simp [fileName, h]
  ne_dot := by
    intro he
    have hlast := congrArg (fun s => s.toList.getLast?) he
    simp [fileName] at hlast
  ne_dots := by
    intro he
    have hlast := congrArg (fun s => s.toList.getLast?) he
    simp [fileName] at hlast

/-- A path that leads to something has no zero character, so the name at its end is one of an entry. -/
theorem isEntryName_of_resolve {p : Path} {a : Address} (hname : IsFileName name)
    (h : resolve t (p.join name) = .ok a) : IsEntryName name where
  toIsFileName := hname
  noZero := by
    obtain ⟨slash, -, htext⟩ := Files.Path.text_join hname p
    intro hz
    exact (resolve_ok_iff.1 h).1.noZero (by simp [htext, hz])

theorem runFile_treeStep (objects root : Path) (policy : Policy) (hobjects : objects.text ≠ "")
    (c : Claim) (ht : t.Ascending)
    (hnames : ∀ b, (Batch.runFile .input (bindFile (treeStore objects) id root policy) c.1 c.2 t).1 =
      .ok b → '/' ∉ b.table.toList) :
    ∃ stored, TreeStep objects root policy c t
      (Batch.runFile .input (bindFile (treeStore objects) id root policy) c.1 c.2 t).1 stored
      (Batch.runFile .input (bindFile (treeStore objects) id root policy) c.1 c.2 t).2 := by
  obtain ⟨f, claim⟩ := c
  cases claim with
  | error e => exact ⟨[], .failed (.refl t)⟩
  | ok names =>
    simp only [Batch.runFile] at hnames ⊢
    unfold bindFile at hnames ⊢
    cases hp : prepare (id t) root policy f names with
    | error e => exact ⟨[], .failed (.refl t)⟩
    | ok p =>
      obtain ⟨s, rows, d, hmade, hobject⟩ := prepare_ok hp
      simp only [hp] at hnames ⊢
      rcases hreplace : replace (treeStore objects) p.report.table p.object t with ⟨e | _, t'⟩
      · exact ⟨[], .failed (changesOnly_of_replace_error ht hreplace)⟩
      · rw [hreplace] at hnames
        have hname := isFileName_fileName (hnames _ rfl)
        obtain ⟨hread, hchanges⟩ := replace_ok ht hname hreplace
        obtain ⟨a, hresolve, hfile, -⟩ := readBytes_ok_iff.1 hread
        have hplace := place?_of_resolve hresolve
        obtain ⟨dir, rfl, hdir, hfolder, -⟩ :=
          (resolve_join_iff (isEntryName_of_resolve hname hresolve) hobjects).1 hresolve
        refine ⟨_, .bound hmade hdir hfolder (hobject ▸ hfile) (hchanges.mono ?_)⟩
        intro b hb
        exact (Option.some.inj (hplace.symm.trans hb)).symm

/-! ## All files -/

/-- A pass over files with their claims: each is one step from the tree that the one before left.
`stored` lists the objects of the files that are bound with their names, in order. -/
inductive Binds (objects root : Path) (policy : Policy) : List Claim → Folder → BindReport →
    List (String × ByteArray) → Folder → Prop where
  | nil (t : Folder) : Binds objects root policy [] t .empty [] t
  | cons {c : Claim} {claims : List Claim} {t t₁ t' : Folder}
      {outcome : Except BindTableError BoundTable} {report : BindReport}
      {first stored : List (String × ByteArray)}
      (step : TreeStep objects root policy c t outcome first t₁)
      (rest : Binds objects root policy claims t₁ report stored t') :
      Binds objects root policy (c :: claims) t (report.add c.1 outcome) (first ++ stored) t'

theorem TreeStep.ascending {c : Claim} {outcome : Except BindTableError BoundTable}
    {stored : List (String × ByteArray)} (h : TreeStep objects root policy c t outcome stored t')
    (ht : t.Ascending) : t'.Ascending := by
  cases h with
  | failed kept => exact kept.ascending ht
  | bound _ _ _ _ others => exact others.ascending ht

theorem run_binds (objects root : Path) (policy : Policy) (hobjects : objects.text ≠ "") :
    ∀ (claims : List Claim) (t : Folder), t.Ascending →
      (∀ b ∈ (Batch.run .input (bindFile (treeStore objects) id root policy) claims t).1.done,
        '/' ∉ b.table.toList) →
      ∃ stored, Binds objects root policy claims t
        (Batch.run .input (bindFile (treeStore objects) id root policy) claims t).1 stored
        (Batch.run .input (bindFile (treeStore objects) id root policy) claims t).2
  | [], t, _, _ => ⟨[], .nil t⟩
  | c :: rest, t, ht, hnames => by
    rw [Batch.run] at hnames ⊢
    have hstep := runFile_treeStep objects root policy hobjects c ht
    generalize Batch.runFile .input (bindFile (treeStore objects) id root policy) c.1 c.2 t = step
      at hnames hstep ⊢
    obtain ⟨outcome, t₁⟩ := step
    simp only at hnames hstep ⊢
    have hrest : ∀ b ∈ (Batch.run .input (bindFile (treeStore objects) id root policy) rest t₁).1.done,
        '/' ∉ b.table.toList := by
      intro b hb
      refine hnames b ?_
      cases outcome with
      | error e => exact hb
      | ok a => exact List.mem_cons_of_mem _ hb
    obtain ⟨first, hstep⟩ := hstep fun b hb => hnames b (by rw [hb]; exact List.mem_cons_self ..)
    obtain ⟨stored, hbinds⟩ := run_binds objects root policy hobjects rest t₁ (hstep.ascending ht) hrest
    exact ⟨first ++ stored, .cons hstep hbinds⟩

namespace Binds

variable {claims : List Claim} {report : BindReport} {stored : List (String × ByteArray)}

/-- There is one object for each table that the pass reports as bound. -/
theorem tables (h : Binds objects root policy claims t report stored t') :
    stored.map Prod.fst = report.done.map BoundTable.table := by
  induction h with
  | nil t => rfl
  | cons step _ ih =>
    cases step with
    | failed => exact ih
    | bound => exact congrArg (_ :: ·) ih

/-- A pass changes the files of the objects that it stores and no others. -/
theorem changesOnly (h : Binds objects root policy claims t report stored t') :
    ChangesOnly (fun a => ∃ dir, place? objects = some dir ∧
      ∃ x ∈ stored, a = dir ++ [fileName x.1]) t t' := by
  induction h with
  | nil t => exact .refl t
  | cons step _ ih =>
    cases step with
    | failed kept => exact (kept.mono fun _ h => h.elim).trans ih
    | bound _ place _ _ others =>
      refine (others.mono ?_).trans (ih.mono ?_)
      · rintro a rfl
        exact ⟨_, place?_of_resolve place, _, List.mem_cons_self .., rfl⟩
      · rintro a ⟨dir, hdir, x, hx, rfl⟩
        exact ⟨dir, hdir, x, List.mem_cons_of_mem _ hx, rfl⟩

/-- The object that is stored last under a name is there behind the pass. -/
theorem last (h : Binds objects root policy claims t report stored t')
    {before after : List (String × ByteArray)} (hsplit : stored = before ++ (name, object) :: after)
    (hafter : name ∉ after.map Prod.fst) : ∃ dir, resolve t' objects = .ok dir ∧ t'.HasFolder dir ∧
      t'.fileAt? (dir ++ [fileName name]) = some object := by
  induction h generalizing before with
  | nil t => cases before <;> cases hsplit
  | cons step rest ih =>
    cases step with
    | failed => exact ih hsplit
    | bound _ place folder there _ =>
      cases before with
      | nil =>
        cases hsplit
        refine ⟨_, resolve_mono rest.changesOnly.folders place, rest.changesOnly.folders _ folder, ?_⟩
        -- no later object has the name, so its file is not written again
        rw [rest.changesOnly.files, there]
        rintro ⟨dir', hdir', x, hx, he⟩
        cases hdir'.symm.trans (place?_of_resolve place)
        have hname := fileName_inj.1 (List.singleton_inj.1 (List.append_cancel_left he))
        exact hafter (List.mem_map.2 ⟨x, hx, hname.symm⟩)
      | cons x before =>
        obtain ⟨-, hrest⟩ := List.cons.inj hsplit
        exact ih hrest

end Binds

/-! ## What a fresh registry answers -/

/-- A pass that binds into the store in a folder, whatever is in the tree: each file takes one step,
which changes at most the file of its own table's object. For a table that it has bound, a fresh
registry then answers with the object bound last, when no file below another folder of the store has
the name of that object; otherwise it counts the object and all these files, which are those that
were there before. Paths are relative to the root of the tree: an absolute one leads to nothing
(`resolve`). -/
theorem bindTables_get {csv : Path} {report : BindReport} (ht : t.Ascending)
    (hobjects : objects.text ≠ "")
    (h : bindTables (treeStore objects) id csv root policy t = (.ok report, t'))
    (hnames : ∀ b ∈ report.done, '/' ∉ b.table.toList) :
    ∃ found stored, discover t csv = .ok found ∧
      Binds objects root policy (claimAll [] found) t report stored t' ∧
      stored.map Prod.fst = report.done.map BoundTable.table ∧
      ∀ before name object after, stored = before ++ (name, object) :: after →
        name ∉ after.map Prod.fst →
        ∃ (dir : Address) (copies : List Address), resolve t' objects = .ok dir ∧ copies.Nodup ∧
          (∀ a, a ∈ copies ↔ a ≠ [fileName name] ∧ a.getLast? = some (fileName name) ∧
            (t.fileAt? (dir ++ a)).isSome) ∧
          (Registry.empty.get ((treeStore objects).loadAll t') name TableType.dynamic).1 =
            answerBeside copies.length name object := by
  unfold bindTables at h
  cases hfound : discover (id t) csv with
  | error e => rw [hfound] at h; cases h
  | ok found =>
    rw [hfound] at h
    obtain ⟨hreport, rfl⟩ := Prod.mk.inj h
    cases hreport
    obtain ⟨stored, hbinds⟩ := run_binds objects root policy hobjects (claimAll [] found) t ht hnames
    refine ⟨found, stored, hfound, hbinds, hbinds.tables, ?_⟩
    intro before name object after hsplit hafter
    obtain ⟨dir, hdir, hfolder, hobject⟩ := hbinds.last hsplit hafter
    obtain ⟨copies, hnodup, hcopies, hget⟩ :=
      get_beside (hbinds.changesOnly.ascending ht) hdir hfolder hobject
    refine ⟨dir, copies, hdir, hnodup, ?_, hget⟩
    intro a
    rw [hcopies]
    refine and_congr_right fun hne => and_congr_right fun hlast => ?_
    -- the objects of the pass are in the folder of the store itself
    rw [hbinds.changesOnly.files]
    rintro ⟨dir', hdir', x, -, he⟩
    cases hdir'.symm.trans (place?_of_resolve hdir)
    rw [List.append_cancel_left he, List.getLast?_singleton, Option.some.injEq] at hlast
    exact hne ((List.append_cancel_left he).trans (by rw [hlast]))

/-! ## Objects that are not found -/

/-- A table file that claims the type `Items`. -/
def itemsFile : TableFile := ⟨"Items", ⟨"csv/Items.csv"⟩, ["Items.csv"], Utf8.encode "ID\nint\n1\n"⟩

/-- The schema of the file with any name of the table. -/
def itemsSchema (table : String) : TableSchema :=
  ⟨table, "items", "ItemsRecord", [⟨"ID", "id", .scalar .int⟩], true⟩

/-- A project with the file, a manifest that names some table, and some objects. -/
def itemsProject (table : String) (objects : Folder) : Folder :=
  .folder "csv" (.file "Items.csv" itemsFile.bytes .empty) <| .folder "objects" objects <|
    .folder "src" (.folder "tables"
      (.file "items.schema.json" (Utf8.encode (itemsSchema table).manifest) .empty) .empty) .empty

theorem ascending_itemsProject (table : String) {objects : Folder} (h : objects.Ascending) :
    (itemsProject table objects).Ascending := by
  have hcsv : ∀ m ∈ ["objects", "src"], "csv" < m := by decide +kernel
  have hobjects : ∀ m ∈ ["src"], "objects" < m := by decide +kernel
  have hone : ∀ {name : String}, ∀ m ∈ ([] : List String), name < m := by simp
  exact ⟨hcsv, ⟨hone, trivial⟩, hobjects, h, hone, ⟨hone, ⟨hone, trivial⟩, trivial⟩, trivial⟩

theorem discover_itemsProject (table : String) {objects : Folder} (h : objects.Ascending) :
    discover (itemsProject table objects) ⟨"csv"⟩ = .ok [itemsFile] := by
  have hstem : stem "Items.csv" = "Items" := by decide +kernel
  have hpath : Path.joinAll ⟨"csv"⟩ ["Items.csv"] = ⟨"csv/Items.csv"⟩ := by decide +kernel
  have hwalked : walked ⟨"csv"⟩ (.file "Items.csv" itemsFile.bytes .empty) = [itemsFile] := by
    rw [walked_file _ _ (by decide +kernel), hstem, hpath]
    rfl
  rw [← hwalked]
  exact discover_eq (ascending_itemsProject table h) rfl

/-- The file is bound under the name in the manifest. -/
theorem prepare_itemsFile (table : String) (objects : Folder) : ∃ object,
    prepare (itemsProject table objects) ⟨"src"⟩ .skipInvalidRows itemsFile ⟨"Items", "items"⟩ =
      .ok ⟨⟨table, itemsFile.path, 1, [], []⟩, object⟩ := by
  have hmanifest : loadManifest (itemsProject table objects) ⟨"src"⟩ ⟨"Items", "items"⟩ =
      .ok (itemsSchema table) := loadManifest_of_readBytes rfl
  obtain ⟨t, htable, hrejected, hrows⟩ :
      ∃ t, itemsFile.table = .ok t ∧ t.rejected = [] ∧ t.rows = [⟨3, [("ID", "1")]⟩] := ⟨_, rfl, rfl, rfl⟩
  obtain ⟨d, hbind, hlength⟩ : ∃ d,
      bindSchema .skipInvalidRows (itemsSchema table) t.rows = .ok (d, []) ∧ d.records.length = 1 :=
    ⟨_, by rw [hrows]; rfl, rfl⟩
  refine ⟨objectOf d, ?_⟩
  unfold prepare
  simp only [hmanifest, htable, hbind, hlength, hrejected]
  rfl

theorem bindTables_itemsProject (p : Path) (table : String) {objects : Folder} (h : objects.Ascending) :
    ∃ object, ∀ t', replace (treeStore p) table object (itemsProject table objects) = (.ok (), t') →
      bindTables (treeStore p) id ⟨"csv"⟩ ⟨"src"⟩ .skipInvalidRows (itemsProject table objects) =
        (.ok ⟨[⟨table, itemsFile.path, 1, [], []⟩], []⟩, t') := by
  obtain ⟨object, hprepare⟩ := prepare_itemsFile table objects
  refine ⟨object, ?_⟩
  intro t' hreplace
  have hclaims : claimAll [] [itemsFile] = [(itemsFile, .ok ⟨"Items", "items"⟩)] := rfl
  have hfound : discover (id (itemsProject table objects)) ⟨"csv"⟩ = .ok [itemsFile] :=
    discover_itemsProject table h
  have hbind : bindFile (treeStore p) id ⟨"src"⟩ .skipInvalidRows itemsFile ⟨"Items", "items"⟩
      (itemsProject table objects) = (.ok ⟨table, itemsFile.path, 1, [], []⟩, t') := by
    unfold bindFile
    simp only [id_eq, hprepare, hreplace]
  unfold bindTables
  simp only [hfound, hclaims, Batch.run, Batch.runFile, hbind]
  rfl

/-- A file of the object's name in a folder below, which is in a folder of that name. -/
def strayCopies : Folder :=
  .folder "before" (.folder "Items.json" (.file "Items.json" ⟨#[0]⟩ .empty) .empty) <|
    .file "items.json" ⟨#[0]⟩ .empty

theorem bindTables_get_strayCopies :
    (itemsProject "Items" strayCopies).Ascending ∧ (Files.Path.mk "objects").text ≠ "" ∧
      ∃ report t', bindTables (treeStore ⟨"objects"⟩) id ⟨"csv"⟩ ⟨"src"⟩ .skipInvalidRows
          (itemsProject "Items" strayCopies) = (.ok report, t') ∧
        (∀ b ∈ report.done, '/' ∉ b.table.toList) ∧
        ∃ (object : ByteArray) (copies : List Address),
          (Registry.empty.get ((treeStore ⟨"objects"⟩).loadAll t') "Items" TableType.dynamic).1 =
            answerBeside copies.length "Items" object ∧
          (Registry.empty.get ((treeStore ⟨"objects"⟩).loadAll t') "Items" TableType.dynamic).1.map Instance.id =
            .error (.ambiguous "Items" 2) := by
  have hstray : strayCopies.Ascending := by decide +kernel
  have hascending := ascending_itemsProject "Items" hstray
  obtain ⟨object, hbind⟩ := bindTables_itemsProject ⟨"objects"⟩ "Items" hstray
  have hresolve : resolve (itemsProject "Items" strayCopies) (Tree.pathFor ⟨"objects"⟩ "Items") =
      .ok ["objects", "Items.json"] := by decide +kernel
  have hpass := hbind _ (replace_of_resolve hresolve rfl (by decide +kernel) object)
  have hnames : ∀ b ∈ [(⟨"Items", itemsFile.path, 1, [], []⟩ : BoundTable)], '/' ∉ b.table.toList := by
    simp
  obtain ⟨_, stored, -, -, htables, hget⟩ := bindTables_get hascending (by decide) hpass hnames
  obtain ⟨⟨name, object'⟩, rfl⟩ := List.length_eq_one_iff.1
    (show stored.length = 1 by simpa using congrArg List.length htables)
  cases htables
  obtain ⟨_, copies, -, -, -, hanswer⟩ := hget [] "Items" object' [] rfl (by simp)
  exact ⟨hascending, by decide, _, _, hpass, hnames, object', copies, hanswer, rfl⟩

theorem get_notFound [TableTypes] {loader : Loader} {name : String} (h : loader name = .ok []) (type : Ty) :
    (Registry.empty.get loader name type).1 = .error (.notFound name) := by
  rw [get_empty, load, h]
  rfl

/-- A store with an empty path has no folder to look in, and an object in a folder below is not looked
for by the path in its name: both tables are bound, their objects are there, and neither is found. -/
theorem boundTable_not_found :
    (∃ report t' object, bindTables (treeStore ⟨""⟩) id ⟨"csv"⟩ ⟨"src"⟩ .skipInvalidRows
          (itemsProject "Items" .empty) = (.ok report, t') ∧
        report.done.map BoundTable.table = ["Items"] ∧ t'.fileAt? ["Items.json"] = some object ∧
        (Registry.empty.get ((treeStore ⟨""⟩).loadAll t') "Items" TableType.dynamic).1 =
          .error (.notFound "Items")) ∧
      ∃ report t' object, bindTables (treeStore ⟨"objects"⟩) id ⟨"csv"⟩ ⟨"src"⟩ .skipInvalidRows
          (itemsProject "below/Items" (.folder "below" .empty .empty)) = (.ok report, t') ∧
        report.done.map BoundTable.table = ["below/Items"] ∧
        t'.fileAt? ["objects", "below", "Items.json"] = some object ∧
        (Registry.empty.get ((treeStore ⟨"objects"⟩).loadAll t') "below/Items" TableType.dynamic).1 =
          .error (.notFound "below/Items") := by
  constructor
  · obtain ⟨object, hbind⟩ := bindTables_itemsProject ⟨""⟩ "Items" (show Folder.empty.Ascending from trivial)
    have hresolve : resolve (itemsProject "Items" .empty) (Tree.pathFor ⟨""⟩ "Items") =
        .ok ["Items.json"] := by decide +kernel
    exact ⟨_, _, object, hbind _ (replace_of_resolve hresolve rfl (by decide +kernel) object), rfl, rfl,
      get_notFound rfl TableType.dynamic⟩
  · have hbelow : (Folder.folder "below" .empty .empty).Ascending := by decide +kernel
    obtain ⟨object, hbind⟩ := bindTables_itemsProject ⟨"objects"⟩ "below/Items" hbelow
    have hresolve : resolve (itemsProject "below/Items" (.folder "below" .empty .empty))
        (Tree.pathFor ⟨"objects"⟩ "below/Items") = .ok ["objects", "below", "Items.json"] := by
      decide +kernel
    exact ⟨_, _, object, hbind _ (replace_of_resolve hresolve rfl (by decide +kernel) object), rfl, rfl,
      get_notFound rfl TableType.dynamic⟩

end TypedTables.Project
