/-
What one folder of a tree holds. Below a folder that is there the path of a name leads to what the
folder holds under the name, if the name and the path are not too long for the system
(`entryAt_join`). A file that is written or taken out there changes the folder by its one entry
(`writeFile_join`, `removeFile_join`), and where a folder holds files only, the walk finds a name once
(`files_named`).
-/
import TypedTables.Proofs.Files.Removal

namespace TypedTables.Files

namespace Folder

variable {f inside : Folder} {e : Entry}

/-! ## The folder of an address -/

/-- What is put into a folder is inserted among what it holds. -/
theorem lookup_put_dir {dir : Address} (h : f.lookup dir = some (.folder inside)) (name : String) :
    (f.put e (dir ++ [name])).lookup dir = some (.folder (inside.insert name e)) := by
  induction dir generalizing f with
  | nil => cases h; rfl
  | cons n dir ih =>
    obtain ⟨g, hg, hdir⟩ := find?_of_lookup_folder h
    rw [List.cons_append, lookup_put_cons (by simp) hg, ih hdir]

theorem lookup_remove_dir {dir : Address} (h : f.lookup dir = some (.folder inside)) (name : String) :
    (f.remove (dir ++ [name])).lookup dir = some (.folder (inside.erase name)) := by
  induction dir generalizing f with
  | nil => cases h; rfl
  | cons n dir ih =>
    obtain ⟨g, hg, hdir⟩ := find?_of_lookup_folder h
    rw [List.cons_append, lookup_remove_cons (by simp) hg, ih hdir]

/-! ## Folders of files -/

/-- No folder is in the folder. -/
def HoldsFiles (f : Folder) : Prop := ∀ name inside, f.find? name ≠ some (.folder inside)

theorem fileAt?_singleton (name : String) (f : Folder) :
    f.fileAt? [name] = (f.find? name).bind fun e => match e with
      | .file bytes => some bytes
      | .folder _ => none := by
  rw [fileAt?, lookup_singleton]
  rcases f.find? name with _ | (_ | _) <;> rfl

theorem fileAt?_insert (name other : String) (bytes : ByteArray) (f : Folder) :
    (f.insert name (.file bytes)).fileAt? [other] =
      if other = name then some bytes else f.fileAt? [other] := by
  rw [fileAt?_singleton, fileAt?_singleton, find?_insert]
  split_ifs <;> rfl

theorem fileAt?_erase (hf : f.Ascending) (name other : String) :
    (f.erase name).fileAt? [other] = if other = name then none else f.fileAt? [other] := by
  rw [fileAt?_singleton, fileAt?_singleton, find?_erase hf]
  split_ifs <;> rfl

/-- The walk through a folder of files finds the file of a name, if there is one. -/
theorem files_named (hf : f.Ascending) (hfiles : f.HoldsFiles) (name : String) :
    (f.files.filter fun x => x.1.getLast? == some name).map Prod.snd = (f.fileAt? [name]).toList := by
  induction f with
  | empty => rfl
  | file n bytes rest ih =>
    have hn : n ∉ rest.names := fun h => lt_irrefl n (hf.1 n h)
    have hrest : rest.HoldsFiles := by
      intro m inside hm
      by_cases hmn : m = n
      · -- the name does not come again
        subst hmn
        exact hn (find?_isSome.1 (by rw [hm]; rfl))
      · exact hfiles m inside (by rw [find?, if_neg hmn, hm])
    rw [files, List.filter_cons, fileAt?_singleton, find?]
    by_cases hname : name = n
    · subst hname
      have hnone : rest.fileAt? [name] = none := fileAt?_cons_of_not_mem [] hn
      simp [ih hf.2 hrest, hnone]
    · simp [Ne.symm hname, hname, ih hf.2 hrest, fileAt?_singleton]
  | folder n inside rest => exact absurd (if_pos rfl) (hfiles n inside)

end Folder

/-! ## Paths below a folder -/

variable {t t' inside : Folder} {p : Path} {a : Address} {name : String} {e : Entry}

/-- Neither the name of an entry nor the path of it is too long. -/
structure Fits (p : Path) (name : String) : Prop where
  nameSize : name.utf8ByteSize ≤ maxNameSize
  pathSize : (p.join name).text.utf8ByteSize < pathSizeLimit

/-- What a path before another one is checked for is checked for in both together. -/
theorem Path.IsPlain.of_join {below : String} (hbelow : (Path.mk below).isAbsolute = false)
    (hp : p.text ≠ "") (h : (p.join below).IsPlain) : p.IsPlain := by
  obtain ⟨slash, -, htext⟩ := text_join_of_relative hbelow p
  obtain ⟨c, cs, hcs⟩ := List.exists_cons_of_ne_nil (show p.text.toList ≠ [] by simpa using hp)
  refine ⟨?_, hp, ?_, ?_⟩
  · intro hz
    exact h.noZero (by simp [htext, hz])
  · have habs := h.relative
    simpa [isAbsolute, htext, hcs] using habs
  · have hsize := h.size
    rw [htext, String.utf8ByteSize_append, String.utf8ByteSize_append] at hsize
    omega

/-- Nothing but the size of the path is added to what the path before the name is checked for. -/
theorem Path.isPlain_join_iff (hname : IsEntryName name) (hp : p.text ≠ "") :
    (p.join name).IsPlain ↔ p.IsPlain ∧ (p.join name).text.utf8ByteSize < pathSizeLimit := by
  refine ⟨fun h => ⟨h.of_join hname.relative hp, h.size⟩, ?_⟩
  rintro ⟨h, hsize⟩
  obtain ⟨slash, hslash, htext⟩ := text_join hname.toIsFileName p
  obtain ⟨c, cs, hcs⟩ := List.exists_cons_of_ne_nil (show p.text.toList ≠ [] by simpa using hp)
  refine ⟨?_, ?_, ?_, hsize⟩
  · have hno : '\x00' ∉ slash.toList := by rcases hslash with rfl | rfl <;> decide
    simp [htext, h.noZero, hno, hname.noZero]
  · rw [htext]
    simp [hp]
  · have habs := h.relative
    simpa [isAbsolute, htext, hcs] using habs

/-- A path that ends in the name of an entry leads below the folder that the path before it leads
to. -/
theorem resolve_join_iff (hname : IsEntryName name) (hp : p.text ≠ "") :
    resolve t (p.join name) = .ok a ↔
      ∃ dir, a = dir ++ [name] ∧ resolve t p = .ok dir ∧ t.HasFolder dir ∧ Fits p name := by
  simp only [resolve_ok_iff, Path.isPlain_join_iff hname hp, Path.parts_join hname.toIsFileName,
    follow_append_iff hname.toIsFileName (Folder.hasFolder_nil t)]
  constructor
  · rintro ⟨⟨hplain, hpath⟩, dir, rfl, hfollow, hdir, hsize⟩
    exact ⟨dir, rfl, ⟨hplain, hfollow⟩, hdir, hsize, hpath⟩
  · rintro ⟨dir, rfl, ⟨hplain, hfollow⟩, hdir, hsize, hpath⟩
    exact ⟨⟨hplain, hpath⟩, dir, rfl, hfollow, hdir, hsize⟩

theorem entryAt_ok_iff (h : namesFolder p = false) :
    entryAt t p = .ok e ↔ ∃ a, resolve t p = .ok a ∧ t.lookup a = some e := by
  unfold entryAt
  cases resolve t p with
  | error e' => simp
  | ok a =>
    simp only [Except.ok.injEq, exists_eq_left', h]
    rcases t.lookup a with _ | (b | g) <;> simp

theorem ne_empty_of_folderAt? (h : folderAt? t p = some inside) : p.text ≠ "" := by
  obtain ⟨a, hresolve, -⟩ := folderAt?_eq_some.1 h
  exact (resolve_ok_iff.1 hresolve).1.ne_empty

/-- Below a folder a path leads to what the folder holds. -/
theorem entryAt_join (hname : IsEntryName name) (hp : p.text ≠ "") :
    entryAt t (p.join name) = .ok e ↔
      ∃ inside, folderAt? t p = some inside ∧ Fits p name ∧ inside.find? name = some e := by
  rw [entryAt_ok_iff (Path.not_namesFolder_join hname.toIsFileName p)]
  simp only [resolve_join_iff hname hp, folderAt?_eq_some]
  constructor
  · rintro ⟨_, ⟨dir, rfl, hresolve, ⟨inside, hi⟩, hfits⟩, hl⟩
    rw [Folder.lookup_append hi, Folder.lookup_singleton] at hl
    exact ⟨inside, ⟨dir, hresolve, hi⟩, hfits, hl⟩
  · rintro ⟨inside, ⟨dir, hresolve, hi⟩, hfits, hl⟩
    refine ⟨dir ++ [name], ⟨dir, rfl, hresolve, ⟨inside, hi⟩, hfits⟩, ?_⟩
    rw [Folder.lookup_append hi, Folder.lookup_singleton, hl]

/-! ## Changes in a folder -/

/-- A folder that is there is not made. -/
theorem makeFolders_of_folderAt? (h : folderAt? t p = some inside) : makeFolders p t = (.ok (), t) := by
  obtain ⟨a, hresolve, hl⟩ := folderAt?_eq_some.1 h
  have hwith : withFolder t p = .error .alreadyExists := by
    simp only [withFolder, hresolve, hl]
  unfold makeFolders
  split_ifs
  · rfl
  · simp only [makeFirstFolder, makeFolderAfter, makeFolder, hwith, isFolder, h, Option.isSome_some,
      if_true]

/-- The address of a folder, at which it is and below which paths lead. -/
structure FolderAt (t : Folder) (p : Path) (inside : Folder) (dir : Address) : Prop where
  resolves : resolve t p = .ok dir
  folder : t.lookup dir = some (.folder inside)

namespace FolderAt

variable {dir : Address}

theorem resolve_join (h : FolderAt t p inside dir) (hname : IsEntryName name) (hfits : Fits p name) :
    resolve t (p.join name) = .ok (dir ++ [name]) :=
  (resolve_join_iff hname (resolve_ok_iff.1 h.resolves).1.ne_empty).2
    ⟨dir, rfl, h.resolves, ⟨inside, h.folder⟩, hfits⟩

theorem lookup (h : FolderAt t p inside dir) (name : String) :
    t.lookup (dir ++ [name]) = inside.find? name := by
  rw [Folder.lookup_append h.folder, Folder.lookup_singleton]

/-- No folder on the way is taken out, so the path still leads to the folder. -/
theorem folderAt? {inside' : Folder} {names : String → Prop} (h : FolderAt t p inside dir)
    (ht : Touches names t t') (hdir : t'.lookup dir = some (.folder inside')) :
    Files.folderAt? t' p = some inside' :=
  folderAt?_eq_some.2 ⟨dir, resolve_mono ht.folders h.resolves, hdir⟩

end FolderAt

theorem exists_folderAt (h : folderAt? t p = some inside) : ∃ dir, FolderAt t p inside dir := by
  obtain ⟨dir, hresolve, hdir⟩ := folderAt?_eq_some.1 h
  exact ⟨dir, hresolve, hdir⟩

/-- A file is written into a folder, where no folder has its name. -/
theorem writeFile_join (hname : IsEntryName name) (hfits : Fits p name)
    (hinside : folderAt? t p = some inside) (hfree : ∀ g, inside.find? name ≠ some (.folder g))
    (bytes : ByteArray) : ∃ t', writeFile (p.join name) bytes t = (.ok (), t') ∧
      Touches (· = name) t t' ∧ folderAt? t' p = some (inside.insert name (.file bytes)) := by
  obtain ⟨dir, hat⟩ := exists_folderAt hinside
  have hwrite : writeFile (p.join name) bytes t = (.ok (), t.put (.file bytes) (dir ++ [name])) := by
    simp only [writeFile, change, written, hat.resolve_join hname hfits, hat.lookup,
      Path.not_namesFolder_join hname.toIsFileName p]
    rcases hfind : inside.find? name with _ | (b | g)
    · rfl
    · rfl
    · exact absurd hfind (hfree g)
  have htouch := touches_of_writeFile hname.toIsFileName hwrite
  exact ⟨_, hwrite, htouch, hat.folderAt? htouch (Folder.lookup_put_dir hat.folder name)⟩

/-- A file is taken out of a folder. -/
theorem removeFile_join (ht : t.Ascending) (hname : IsEntryName name) (hfits : Fits p name)
    (hinside : folderAt? t p = some inside) {bytes : ByteArray}
    (hfile : inside.find? name = some (.file bytes)) : ∃ t', removeFile (p.join name) t = (.ok (), t') ∧
      Touches (· = name) t t' ∧ folderAt? t' p = some (inside.erase name) := by
  obtain ⟨dir, hat⟩ := exists_folderAt hinside
  have hremove : removeFile (p.join name) t = (.ok (), t.remove (dir ++ [name])) := by
    simp only [removeFile, change, withoutFile, hat.resolve_join hname hfits, hat.lookup, hfile,
      Path.not_namesFolder_join hname.toIsFileName p]
    rfl
  have htouch := touches_removeFile hname.toIsFileName p ht
  rw [hremove] at htouch
  exact ⟨_, hremove, htouch, hat.folderAt? htouch (Folder.lookup_remove_dir hat.folder name)⟩

/-- Nothing is written where the name or the path is too long. -/
theorem writeFile_of_not_fits (hname : IsEntryName name) (hp : p.text ≠ "") (hfits : ¬ Fits p name)
    (bytes : ByteArray) (t : Folder) : ∃ e, writeFile (p.join name) bytes t = (.error e, t) := by
  cases hresolve : resolve t (p.join name) with
  | error e => exact ⟨e, by simp only [writeFile, change, written, hresolve]⟩
  | ok a =>
    obtain ⟨-, -, -, -, hfits'⟩ := (resolve_join_iff hname hp).1 hresolve
    exact absurd hfits' hfits

end TypedTables.Files
