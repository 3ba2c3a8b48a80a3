/-
Files that are read when their turn comes. The passes work with the bytes that each table file had when
the files were found; here a pass looks into the tree again when the turn of a file comes. It finds the
same bytes, since nothing that is written before is a table file: a pass that compiles writes modules and
manifests, and a store keeps its objects in files of another extension. Main statements:
`compileTables_inTurn` and `bindTables_inTurn`, the latter with its cases for both stores.

A path of 4096 bytes or more leads to nothing. A file with such a path would be found, but not be read.
-/
import TypedTables.Proofs.Project.Discovery
import TypedTables.Proofs.Project.FreshRegistry

namespace TypedTables.Project

open TypedTables.Binding TypedTables.Files TypedTables.Naming TypedTables.Schema TypedTables.Store

/-! ## Passes that read in turn -/

section

variable {σ α ε : Type}

/-- A step that reads its file when the turn of the file comes. -/
def inTurn (view : σ → Folder) (ofOs : OsError → ε)
    (step : TableFile → TableNames → σ → Except ε α × σ) (f : TableFile) (names : TableNames) (s : σ) :
    Except ε α × σ :=
  match readBytes (view s) f.path with
  | .error e => (.error (ofOs e), s)
  | .ok bytes => step { f with bytes := bytes } names s

/-- Binds one file that is read when its manifest was. -/
def bindFileInTurn (store : ObjectStore σ) (view : σ → Folder) (root : Path) (policy : Policy)
    (f : TableFile) (names : TableNames) (s : σ) : Except BindTableError BoundTable × σ :=
  match loadManifest (view s) root names with
  | .error e => (.error e, s)
  | .ok _ => inTurn view .os (bindFile store view root policy) f names s

/-- Compiles every table file below a folder, each read in its turn. -/
def compileTablesInTurn (folder root : Path) (files : Folder) :
    Except CompileError CompileReport × Folder :=
  match discover files folder with
  | .error e => (.error (.input (.read e)), files)
  | .ok found =>
    let (batch, files) := Batch.run .input (inTurn id .os (compileFile root)) (claimAll [] found) files
    match writeRegistry root (registryEntries batch.done) files with
    | (.error e, files) => (.error (.os e), files)
    | (.ok path, files) => (.ok ⟨batch, path⟩, files)

/-- Binds every table file below a folder, each read in its turn. -/
def bindTablesInTurn (store : ObjectStore σ) (view : σ → Folder) (folder root : Path) (policy : Policy)
    (s : σ) : Except BindTableError BindReport × σ :=
  match discover (view s) folder with
  | .error e => (.error (.input (.read e)), s)
  | .ok found =>
    let (batch, s) := Batch.run .input (bindFileInTurn store view root policy) (claimAll [] found) s
    (.ok batch, s)

end

/-! ## Table files that stay -/

/-- Every table file that can be read in one tree can be read in another one with the same bytes. -/
def KeepsTableFiles (t t' : Folder) : Prop :=
  ∀ (p : Path) name bytes, IsFileName name → isTableName name = true →
    readBytes t (p.join name) = .ok bytes → readBytes t' (p.join name) = .ok bytes

theorem KeepsTableFiles.refl (t : Folder) : KeepsTableFiles t t := fun _ _ _ _ _ h => h

theorem KeepsTableFiles.of_touches {names : String → Prop} {t t' : Folder} (h : Touches names t t')
    (hn : ∀ n, names n → isTableName n = false) : KeepsTableFiles t t' := by
  intro p name bytes hname htable hread
  refine h.readBytes hname ?_ hread
  intro hnamed
  rw [hn name hnamed] at htable
  cases htable

theorem KeepsTableFiles.of_changesOnly {places : Address → Prop} {t t' : Folder}
    (h : ChangesOnly places t t') (hp : ∀ dir name, places (dir ++ [name]) → isTableName name = false) :
    KeepsTableFiles t t' := by
  intro p name bytes hname htable hread
  obtain ⟨a, hresolve, hfile, hfolder⟩ := readBytes_ok_iff.1 hread
  obtain ⟨dir, rfl, -⟩ := exists_dir_of_resolve hname hresolve
  refine readBytes_ok_iff.2 ⟨_, resolve_mono h.folders hresolve, ?_, hfolder⟩
  rw [h.files _ fun hplace => by rw [hp dir name hplace] at htable; cases htable]
  exact hfile

/-- A table file whose path leads to the bytes that it was found with. -/
structure ReadAsFound (t : Folder) (f : TableFile) : Prop where
  path : ∃ (p : Path) (name : String), f.path = p.join name ∧ IsFileName name ∧ isTableName name = true
  read : readBytes t f.path = .ok f.bytes

theorem ReadAsFound.kept {t t' : Folder} {f : TableFile} (h : ReadAsFound t f)
    (hkeeps : KeepsTableFiles t t') : ReadAsFound t' f := by
  obtain ⟨p, name, hpath, hname, htable⟩ := h.path
  refine ⟨h.path, ?_⟩
  have hread := h.read
  rw [hpath] at hread ⊢
  exact hkeeps p name _ hname htable hread

/-! ## Files as they are found -/

/-- The names of an address can be those of entries, and the path of it is not too long. -/
structure Reachable (folder : Path) (address : Address) : Prop where
  names : ∀ name ∈ address, IsEntryName name ∧ name.utf8ByteSize ≤ maxNameSize
  size : (folder.joinAll address).text.utf8ByteSize < pathSizeLimit

theorem size_le_joinAll {names : List String} (h : ∀ name ∈ names, IsEntryName name ∧
    name.utf8ByteSize ≤ maxNameSize) (p : Path) :
    p.text.utf8ByteSize ≤ (p.joinAll names).text.utf8ByteSize := by
  induction names generalizing p with
  | nil => exact le_rfl
  | cons name names ih =>
    obtain ⟨hname, hnames⟩ := List.forall_mem_cons.1 h
    obtain ⟨slash, -, htext⟩ := Path.text_join hname.1.toIsFileName p
    calc p.text.utf8ByteSize
        ≤ (p.join name).text.utf8ByteSize := by
          rw [htext, String.utf8ByteSize_append, String.utf8ByteSize_append]; omega
      _ ≤ ((p.join name).joinAll names).text.utf8ByteSize := ih hnames _

/-- Below a folder the path of an address leads to the address. -/
theorem resolve_joinAll {t : Folder} : ∀ {names : List String} {p : Path} {a : Address} {inside : Folder}
    {e : Entry}, resolve t p = .ok a → t.lookup a = some (.folder inside) →
      inside.lookup names = some e → Reachable p names → resolve t (p.joinAll names) = .ok (a ++ names)
  | [], p, a, inside, e, hp, _, _, _ => by rwa [List.append_nil]
  | name :: names, p, a, inside, e, hp, ha, he, hreach => by
    obtain ⟨hname, hnames⟩ := List.forall_mem_cons.1 hreach.names
    have hfits : Fits p name :=
      ⟨hname.2, (size_le_joinAll hnames (p.join name)).trans_lt hreach.size⟩
    have hjoin : resolve t (p.join name) = .ok (a ++ [name]) :=
      (resolve_join_iff hname.1 (resolve_ok_iff.1 hp).1.ne_empty).2 ⟨a, rfl, hp, ⟨inside, ha⟩, hfits⟩
    cases names with
    | nil => exact hjoin
    | cons next names =>
      obtain ⟨g, hg, hrest⟩ := Folder.find?_of_lookup_cons_cons he
      have hbelow : t.lookup (a ++ [name]) = some (.folder g) := by
        rw [Folder.lookup_append ha, Folder.lookup_singleton, hg]
      have hlonger := resolve_joinAll hjoin hbelow hrest ⟨hnames, hreach.size⟩
      rwa [List.append_assoc] at hlonger

/-- The files that are found can be read with the bytes that they are found with. -/
theorem readAsFound_of_discover {t : Folder} {folder : Path} {found : List TableFile} (ht : t.Ascending)
    (h : discover t folder = .ok found)
    (hreach : ∀ inside, folderAt? t folder = some inside → ∀ x ∈ inside.files, Reachable folder x.1) :
    ∀ f ∈ found, ReadAsFound t f := by
  intro f hf
  cases hinside : folderAt? t folder with
  | none => rw [discover, hinside] at h; cases h
  | some inside =>
    cases (discover_eq ht hinside).symm.trans h
    obtain ⟨a, hresolve, hlookup⟩ := folderAt?_eq_some.1 hinside
    have hascending := ht.lookup hlookup
    obtain ⟨dir, name, hfile, hnames, -, hpath⟩ := (mem_walked hascending).1 hf
    have hreachable := hreach inside hinside _ ((Folder.mem_files hascending).2 hfile)
    have hname : IsFileName name := (hreachable.names name (by simp)).1.toIsFileName
    have hjoin : f.path = (folder.joinAll dir).join name := by
      rw [hpath, Path.joinAll, Path.joinAll, List.foldl_append]; rfl
    have hstem : isTableName name = true := by
      rw [isTableName_iff, hnames.stem_eq]
      exact hnames
    refine ⟨⟨_, name, hjoin, hname, hstem⟩, readBytes_ok_iff.2 ⟨a ++ (dir ++ [name]), ?_, ?_, ?_⟩⟩
    · rw [hpath]
      exact resolve_joinAll hresolve hlookup (Folder.fileAt?_eq_some.1 hfile) hreachable
    · rw [Folder.fileAt?_eq_some, Folder.lookup_append hlookup]
      exact Folder.fileAt?_eq_some.1 hfile
    · rw [hjoin]
      exact Path.not_namesFolder_join hname _

/-! ## Reading in turn -/

section

variable {σ α ε : Type} {ofInput : InputError → ε}

theorem inTurn_eq {view : σ → Folder} {ofOs : OsError → ε} {step : TableFile → TableNames → σ → Except ε α × σ}
    {f : TableFile} {s : σ} (h : readBytes (view s) f.path = .ok f.bytes) (names : TableNames) :
    inTurn view ofOs step f names s = step f names s := by
  rw [inTurn, h]

/-- Two steps that do the same with files that are read as found make the same of a pass, as long as no
file keeps the later ones from being read so. -/
theorem run_congr (view : σ → Folder) (valid : σ → Prop)
    {step step' : TableFile → TableNames → σ → Except ε α × σ}
    (heq : ∀ f names s, readBytes (view s) f.path = .ok f.bytes → step' f names s = step f names s) :
    ∀ (claims : List Claim) (s : σ),
      (∀ c ∈ claims, ∀ s, valid s → valid (Batch.runFile ofInput step c.1 c.2 s).2 ∧
        KeepsTableFiles (view s) (view (Batch.runFile ofInput step c.1 c.2 s).2)) →
      valid s → (∀ c ∈ claims, ReadAsFound (view s) c.1) →
      Batch.run ofInput step' claims s = Batch.run ofInput step claims s
  | [], _, _, _, _ => rfl
  | c :: rest, s, hkeeps, hvalid, hread => by
    obtain ⟨hkeepsFirst, hkeepsRest⟩ := List.forall_mem_cons.1 hkeeps
    obtain ⟨hfirst, hrest⟩ := List.forall_mem_cons.1 hread
    have hfile : Batch.runFile ofInput step' c.1 c.2 s = Batch.runFile ofInput step c.1 c.2 s := by
      obtain ⟨f, claim⟩ := c
      cases claim with
      | error e => rfl
      | ok names => exact heq f names s hfirst.read
    obtain ⟨hvalid', hkept⟩ := hkeepsFirst s hvalid
    have ih := run_congr view valid heq rest _ hkeepsRest hvalid' fun d hd => (hrest d hd).kept hkept
    simp only [Batch.run, hfile, ih]

end

theorem readAsFound_of_mem_claimAll {t : Folder} {found : List TableFile}
    (h : ∀ f ∈ found, ReadAsFound t f) : ∀ c ∈ claimAll [] found, ReadAsFound t c.1 := by
  intro c hc
  refine h c.1 ?_
  rw [← claimAll_files [] found]
  exact List.mem_map_of_mem hc

/-! ## Compiling -/

/-- What one file of a pass writes is no table file, also when not all of it can be written. -/
theorem keepsTableFiles_compile (root : Path) {c : Claim} (hc : c.Proper) (t : Folder) :
    KeepsTableFiles t (Batch.runFile .input (compileFile root) c.1 c.2 t).2 := by
  have hstep := runFile_compileStep root hc t
  generalize Batch.runFile .input (compileFile root) c.1 c.2 t = step at hstep ⊢
  obtain ⟨outcome, t'⟩ := step
  have hwrite : ∀ ct r, compiled root c = .ok ct → writeTable root ct.schema t = (r, t') →
      KeepsTableFiles t t' := by
    intro ct r made write
    obtain ⟨_, _, hfrom⟩ := compiled_ok hc made
    have htouch := touches_writeTable root (hfrom.isIdentifier hc) t
    rw [write] at htouch
    exact .of_touches htouch fun n hn => hn.not_isTableName
  cases hstep with
  | failed made => exact .refl _
  | unwritten made write => exact hwrite _ _ made write
  | written made write => exact hwrite _ _ made write

/-- Reading each file in its turn makes no difference for a pass that compiles. Paths are relative
to the root of the tree: an absolute one leads to nothing (`resolve`). -/
theorem compileTables_inTurn {folder root : Path} {files : Folder} (hfiles : files.Ascending)
    (hreach : ∀ inside, folderAt? files folder = some inside →
      ∀ x ∈ inside.files, Reachable folder x.1) :
    compileTablesInTurn folder root files = compileTables folder root files := by
  unfold compileTablesInTurn compileTables
  cases hfound : discover files folder with
  | error e => rfl
  | ok found =>
    have hread := readAsFound_of_mem_claimAll (readAsFound_of_discover hfiles hfound hreach)
    have hrun : Batch.run .input (inTurn id .os (compileFile root)) (claimAll [] found) files =
        Batch.run .input (compileFile root) (claimAll [] found) files := by
      refine run_congr id (fun _ => True) (fun f names s h => inTurn_eq h names) _ _ ?_ trivial hread
      intro c hc t _
      exact ⟨trivial, keepsTableFiles_compile root (claimAll_proper [] found c hc) t⟩
    dsimp only
    exact hrun ▸ rfl

/-! ## Binding -/

/-- The last part of the path of an object has the extension of objects, whatever slashes are in the
name of the object. -/
theorem exists_parts_fileName (name : String) : ∃ front stem,
    (Files.Path.mk (fileName name)).parts = front ++ [stem ++ ".json"] ∧ '/' ∉ (stem ++ ".json").toList := by
  have hending : '/' ∉ ".json".toList := by decide
  obtain ⟨front, last, hsplit, hlast⟩ := Files.Path.exists_splitSlashes_append hending name.toList
  have hstem : String.ofList (last ++ ".json".toList) = String.ofList last ++ ".json" := by
    rw [String.ofList_append, String.ofList_toList]
  refine ⟨(front.filter fun part => !part.isEmpty).map String.ofList, String.ofList last, ?_, ?_⟩
  · rw [Files.Path.parts, fileName, String.toList_append, hsplit, List.filter_append, List.map_append,
      List.filter_cons_of_pos (by simp), List.filter_nil, List.map_singleton, hstem]
  · rw [← hstem, String.toList_ofList, List.mem_append]
    exact not_or.2 ⟨hlast, hending⟩

/-- An object is kept in no table file. -/
theorem not_isTableName_of_place? {objects : Path} {name file : String} {dir : Address}
    (h : place? (Tree.pathFor objects name) = some (dir ++ [file])) : isTableName file = false := by
  obtain ⟨front, stem, hparts, hslash⟩ := exists_parts_fileName name
  have hjoined : ∃ before, (Tree.pathFor objects name).parts = before ++ [stem ++ ".json"] := by
    by_cases habs : (Files.Path.mk (fileName name)).isAbsolute = true
    · refine ⟨front, ?_⟩
      rw [Tree.pathFor, Files.Path.join, if_pos habs, hparts]
    · refine ⟨objects.parts ++ front, ?_⟩
      rw [Tree.pathFor, Files.Path.parts_join_of_relative (by simpa using habs), hparts, List.append_assoc]
  have hfile : IsFileName (stem ++ ".json") := by
    have hlength : ∀ other : String, other.length < 5 → stem ++ ".json" ≠ other := by
      rintro _ hshort rfl
      have hjson : ".json".length = 5 := rfl
      rw [String.length_append] at hshort
      omega
    exact ⟨hlength "" (by decide), hslash, hlength "." (by decide), hlength ".." (by decide)⟩
  obtain ⟨before, hbefore⟩ := hjoined
  rw [place?, hbefore, placeFrom_append hfile] at h
  obtain ⟨dir', -, heq⟩ := Option.map_eq_some_iff.1 h
  obtain ⟨-, hlast⟩ := List.append_inj' heq rfl
  have hdot : stem ++ ".json" = stem ++ "." ++ "json" := by rw [String.append_assoc]; rfl
  rw [← List.singleton_inj.1 hlast, hdot]
  exact isTableName_append stem "json" (by decide) (by decide +kernel)

theorem changesOnly_create (objects : Path) (name : String) (object : ByteArray) (t : Folder) :
    ChangesOnly (fun a => place? (Tree.pathFor objects name) = some a) t
      ((treeStore objects).create name object t).2 := by
  change ChangesOnly _ t (Tree.create objects name object t).2
  cases htaken : pathExists t (Tree.pathFor objects name) with
  | true =>
    rw [Tree.create_of_taken htaken]
    exact .refl t
  | false =>
    rw [Tree.create_of_free htaken, Tree.files_snd]
    exact ChangesOnly.bind (.of_touches (touches_makeFolders objects t)) fun _ t' =>
      changesOnly_writeFile (Tree.pathFor objects name) object t'

/-- Replacing an object changes its file alone. -/
theorem changesOnly_replace {t : Folder} (ht : t.Ascending) (objects : Path) (name : String)
    (object : ByteArray) : ChangesOnly (fun a => place? (Tree.pathFor objects name) = some a) t
      (replace (treeStore objects) name object t).2 := by
  rw [replace_of_holds rfl]
  have hdelete := changesOnly_delete ht objects name
  rcases h : (treeStore objects).delete name t with ⟨e | _, t₁⟩
  · rw [h] at hdelete
    rw [bind_of_error h]
    exact hdelete
  · rw [h] at hdelete
    rw [bind_of_ok h]
    exact hdelete.trans (changesOnly_create objects name object t₁)

theorem keepsTableFiles_treeStore (objects : Path) (name : String) (object : ByteArray) (t : Folder)
    (ht : t.Ascending) : (replace (treeStore objects) name object t).2.Ascending ∧
      KeepsTableFiles t (replace (treeStore objects) name object t).2 := by
  have hchanges := changesOnly_replace ht objects name object
  exact ⟨hchanges.ascending ht, .of_changesOnly hchanges fun dir file h => not_isTableName_of_place? h⟩

/-- A file that is bound leaves the state as it is, or with an object replaced. -/
theorem runFile_state {σ : Type} {store : ObjectStore σ} {view : σ → Folder} {root : Path} {policy : Policy}
    {c : Claim} {s : σ} (holds : σ → Prop) (hkept : holds s)
    (hreplaced : ∀ name object, holds (replace store name object s).2) :
    holds (Batch.runFile .input (bindFile store view root policy) c.1 c.2 s).2 := by
  obtain ⟨f, claim⟩ := c
  cases claim with
  | error e => exact hkept
  | ok names =>
    show holds (bindFile store view root policy f names s).2
    unfold bindFile
    cases prepare (view s) root policy f names with
    | error e => exact hkept
    | ok p =>
      have hstored := hreplaced p.report.table p.object
      rcases hreplace : replace store p.report.table p.object s with ⟨e | _, s'⟩ <;>
        simpa only [hreplace] using hstored

theorem bindFile_of_manifest_error {σ : Type} {store : ObjectStore σ} {view : σ → Folder} {s : σ}
    {root : Path} {policy : Policy} {f : TableFile} {names : TableNames} {e : BindTableError}
    (h : loadManifest (view s) root names = .error e) :
    bindFile store view root policy f names s = (.error e, s) := by
  have hprepare : prepare (view s) root policy f names = .error e := by
    unfold prepare
    rw [h]
  unfold bindFile
  rw [hprepare]

/-- Reading each file in its turn makes no difference for a pass that binds, if putting objects into the
store keeps the table files that a state of it shows, as long as the states are valid. -/
theorem bindTables_inTurn {σ : Type} {store : ObjectStore σ} {view : σ → Folder} (valid : σ → Prop)
    (hstore : ∀ name object s, valid s → valid (replace store name object s).2 ∧
      KeepsTableFiles (view s) (view (replace store name object s).2))
    {folder root : Path} {s : σ} (hvalid : valid s) (hfiles : (view s).Ascending)
    (hreach : ∀ inside, folderAt? (view s) folder = some inside →
      ∀ x ∈ inside.files, Reachable folder x.1) (policy : Policy) :
    bindTablesInTurn store view folder root policy s = bindTables store view folder root policy s := by
  unfold bindTablesInTurn bindTables
  cases hfound : discover (view s) folder with
  | error e => rfl
  | ok found =>
    have hread := readAsFound_of_mem_claimAll (readAsFound_of_discover hfiles hfound hreach)
    have hrun : Batch.run .input (bindFileInTurn store view root policy) (claimAll [] found) s =
        Batch.run .input (bindFile store view root policy) (claimAll [] found) s := by
      refine run_congr view valid ?_ _ _ ?_ hvalid hread
      · intro f names s h
        unfold bindFileInTurn
        rw [inTurn_eq h]
        cases hmanifest : loadManifest (view s) root names with
        | ok schema => rfl
        | error e => exact (bindFile_of_manifest_error hmanifest).symm
      · intro c _ s hs
        exact runFile_state (fun s' => valid s' ∧ KeepsTableFiles (view s) (view s'))
          ⟨hs, .refl (view s)⟩ fun name object => hstore name object s hs
    simp only [hrun]

theorem bindTables_inTurn_memoryStore {folder root : Path} {files : Folder} (hfiles : files.Ascending)
    (hreach : ∀ inside, folderAt? files folder = some inside →
      ∀ x ∈ inside.files, Reachable folder x.1) (policy : Policy) (m : Memory) :
    bindTablesInTurn memoryStore (fun _ => files) folder root policy m =
      bindTables memoryStore (fun _ => files) folder root policy m :=
  bindTables_inTurn (fun _ => True) (fun _ _ _ _ => ⟨trivial, .refl files⟩) trivial hfiles hreach policy

/-- The objects of the store in a folder may be anywhere in the tree, among the table files too. -/
theorem bindTables_inTurn_treeStore {folder root objects : Path} {files : Folder}
    (hfiles : files.Ascending)
    (hreach : ∀ inside, folderAt? files folder = some inside →
      ∀ x ∈ inside.files, Reachable folder x.1) (policy : Policy) :
    bindTablesInTurn (treeStore objects) id folder root policy files =
      bindTables (treeStore objects) id folder root policy files :=
  bindTables_inTurn Folder.Ascending (keepsTableFiles_treeStore objects) hfiles hfiles hreach policy

end TypedTables.Project
