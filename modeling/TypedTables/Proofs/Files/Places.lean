/-
What a change of a file tree does, told by the addresses of files. Where `Touches` speaks of all files
with some names, `ChangesOnly` allows for changes at some addresses alone; writing a file changes the
one that its path leads to. What is there already is not changed by being put there once more, so a
file that is written again leaves the tree as it is (`writeFile_of_readBytes`).
-/
import TypedTables.Proofs.Files.Contents

namespace TypedTables.Files

/-! ## Putting the same again -/

namespace Folder

variable {f : Folder} {e : Entry}

theorem insert_of_find? {name : String} (hf : f.Ascending) (h : f.find? name = some e) :
    f.insert name e = f := by
  induction f using cons_induction with
  | empty => cases h
  | cons n e' rest ih =>
    obtain ⟨hn, -, hrest⟩ := ascending_cons.1 hf
    rw [find?_cons] at h
    rw [insert_cons]
    by_cases heq : name = n
    · subst heq
      rw [if_pos rfl] at h
      cases h
      rw [if_neg (lt_irrefl _), if_pos rfl]
    · rw [if_neg heq] at h
      -- the name comes after this one
      have hlt : n < name := hn name (find?_isSome.1 (by rw [h]; rfl))
      rw [if_neg hlt.asymm, if_neg heq, ih hrest h]

theorem put_of_lookup {dir : Address} {name : String} (hf : f.Ascending)
    (h : f.lookup (dir ++ [name]) = some e) : f.put e (dir ++ [name]) = f := by
  induction dir generalizing f with
  | nil =>
    rw [List.nil_append, lookup_singleton] at h
    exact insert_of_find? hf h
  | cons n dir ih =>
    rw [List.cons_append] at h ⊢
    by_cases hg : ∃ g, f.find? n = some (.folder g)
    · obtain ⟨g, hg⟩ := hg
      rw [lookup_cons_of_find? hg] at h
      rw [put_cons (by simp), hg]
      simp only [ih (hf.find? hg) h]
      exact insert_of_find? hf hg
    · rw [put_cons_of_not_folder (by simp) (not_exists.1 hg)]

end Folder

variable {t t' : Folder} {p : Path} {name : String} {bytes : ByteArray}

theorem exists_dir_of_fileAt? {a : Address} (h : t.fileAt? a = some bytes) :
    ∃ dir name, a = dir ++ [name] := by
  have hne : a ≠ [] := by
    rintro rfl
    cases h
  exact ⟨a.dropLast, a.getLast hne, (List.dropLast_append_getLast hne).symm⟩

/-- A file that is written with the bytes it has leaves the tree as it is. -/
theorem writeFile_of_readBytes (ht : t.Ascending) (h : readBytes t p = .ok bytes) :
    writeFile p bytes t = (.ok (), t) := by
  obtain ⟨a, hresolve, hfile, hfolder⟩ := readBytes_ok_iff.1 h
  obtain ⟨dir, name, rfl⟩ := exists_dir_of_fileAt? hfile
  have hlookup := Folder.fileAt?_eq_some.1 hfile
  have hwritten : written t p bytes = .ok t := by
    simp only [written, hresolve, hfolder, Bool.false_eq_true, if_false, hlookup,
      Folder.put_of_lookup ht hlookup]
  simp only [writeFile, change, hwritten]

/-! ## Folders on the way -/

/-- Parts that lead somewhere lead on from a folder, which the parts at their front lead to. -/
theorem follow_append {back : List String} (hback : back ≠ []) {a : Address} :
    ∀ {front : List String} {here : Address}, t.HasFolder here → follow t here (front ++ back) = .ok a →
      ∃ dir, follow t here front = .ok dir ∧ t.HasFolder dir
  | [], here, hhere, _ => ⟨here, rfl, hhere⟩
  | part :: rest, here, hhere, h => by
    have hmore : ¬ (rest ++ back).isEmpty = true := by simp [hback]
    rw [List.cons_append, follow, if_neg hmore] at h
    rw [follow]
    split_ifs at h ⊢ with hdot hdots hroot hsize hrest
    · exact follow_append hback hhere h
    · have hne : here ≠ [] := by simpa using hroot
      rw [← List.dropLast_append_getLast hne] at hhere
      exact follow_append hback hhere.of_append h
    all_goals
      split at h
      · cases h
      · cases h
      rename_i inside hinside
    · exact ⟨here ++ [part], rfl, inside, hinside⟩
    · exact follow_append hback ⟨inside, hinside⟩ h

/-- The folders of a path are there when a path below it leads somewhere. -/
theorem makeFolders_of_resolve_join {below : String} (hbelow : (Path.mk below).parts ≠ []) {a : Address}
    (h : resolve t (p.join below) = .ok a) : makeFolders p t = (.ok (), t) := by
  by_cases hp : p.text = ""
  · rw [makeFolders, if_pos (by simpa using hp)]; rfl
  · obtain ⟨hplain, hfollow⟩ := resolve_ok_iff.1 h
    have hrelative : (Path.mk below).isAbsolute = false := by
      by_contra habs
      have hjoin : p.join below = ⟨below⟩ := by rw [Path.join, if_pos (by simpa using habs)]
      exact habs (hjoin ▸ hplain.relative)
    rw [Path.parts_join_of_relative hrelative] at hfollow
    obtain ⟨dir, hdir, inside, hinside⟩ := follow_append hbelow (Folder.hasFolder_nil t) hfollow
    exact makeFolders_of_folderAt? (folderAt?_eq_some.2
      ⟨dir, resolve_ok_iff.2 ⟨hplain.of_join hrelative hp, hdir⟩, hinside⟩)

theorem makeFolders_of_readBytes (hname : IsFileName name) (h : readBytes t (p.join name) = .ok bytes) :
    makeFolders p t = (.ok (), t) := by
  obtain ⟨a, hresolve, -⟩ := readBytes_ok_iff.1 h
  exact makeFolders_of_resolve_join (by simp [Path.parts_name hname]) hresolve

/-! ## Changes at addresses -/

/-- A change that takes no folder away and changes no file but those at some addresses. -/
structure ChangesOnly (places : Address → Prop) (t t' : Folder) : Prop where
  folders : ∀ a, t.HasFolder a → t'.HasFolder a
  files : ∀ a, ¬ places a → t'.fileAt? a = t.fileAt? a
  ascending : t.Ascending → t'.Ascending

namespace ChangesOnly

variable {places places' : Address → Prop} {t'' : Folder}

theorem refl (t : Folder) : ChangesOnly places t t := ⟨fun _ h => h, fun _ _ => rfl, id⟩

theorem trans (h : ChangesOnly places t t') (h' : ChangesOnly places t' t'') :
    ChangesOnly places t t'' :=
  ⟨fun a ha => h'.folders a (h.folders a ha),
    fun a hn => (h'.files a hn).trans (h.files a hn), h'.ascending ∘ h.ascending⟩

theorem mono (h : ChangesOnly places t t') (hp : ∀ a, places a → places' a) : ChangesOnly places' t t' :=
  ⟨h.folders, fun a hn => h.files a fun ha => hn (hp a ha), h.ascending⟩

/-- A change that touches no file changes none anywhere. -/
theorem of_touches (h : Touches (fun _ => False) t t') : ChangesOnly places t t' where
  folders := h.folders
  files a _ := by
    rcases List.eq_nil_or_concat' a with rfl | ⟨dir, name, rfl⟩
    · rfl
    · exact h.files dir name id
  ascending := h.ascending

theorem bind {α β : Type} {f : FileM α} {g : α → FileM β} (hf : ChangesOnly places t (f t).2)
    (hg : ∀ a t', ChangesOnly places t' (g a t').2) :
    ChangesOnly places t ((f >>= g : FileM β) t).2 := by
  rcases h : f t with ⟨e | a, t'⟩
  · rw [h] at hf
    rw [bind_of_error h]
    exact hf
  · rw [h] at hf
    rw [bind_of_ok h]
    exact hf.trans (hg a t')

end ChangesOnly

/-- A file is written where the path leads, and no folder is there. -/
theorem put_of_written (h : written t p bytes = .ok t') :
    ∃ a, resolve t p = .ok a ∧ ¬ t.HasFolder a ∧ t' = t.put (.file bytes) a := by
  unfold written at h
  split at h
  · cases h
  · rename_i a hresolve
    split_ifs at h
    split at h
    · cases h
    · rename_i hnone
      cases h
      exact ⟨a, hresolve, fun ⟨inside, hi⟩ => hnone inside hi, rfl⟩

/-- Writing changes the file that the path leads to. -/
theorem changesOnly_writeFile (p : Path) (bytes : ByteArray) (t : Folder) :
    ChangesOnly (fun a => place? p = some a) t (writeFile p bytes t).2 := by
  rcases change_cases (fun root => written root p bytes) t with ⟨e, h⟩ | ⟨t', hw, h⟩
  · rw [writeFile, h]
    exact .refl t
  · rw [writeFile, h]
    obtain ⟨a, hresolve, hfree, rfl⟩ := put_of_written hw
    rcases List.eq_nil_or_concat' a with rfl | ⟨dir, name, rfl⟩
    · exact absurd (Folder.hasFolder_nil t) hfree
    refine ⟨fun _ hb => hb.put hfree, ?_, fun ht => ht.put (e := .file bytes) trivial⟩
    intro b hb
    refine Folder.fileAt?_put_of_ne (.file bytes) hfree ?_
    rintro rfl
    exact hb (place?_of_resolve hresolve)

/-! ## Taking a file out -/

theorem isFile_iff : isFile t p = true ↔ ∃ bytes, readBytes t p = .ok bytes := by
  unfold isFile readBytes
  rcases entryAt t p with e | (bytes | inside) <;> simp

/-- A file that is there is taken out; its path leads to the same place then, where nothing is. -/
theorem removeFile_of_readBytes (ht : t.Ascending) (h : readBytes t p = .ok bytes) :
    ∃ a t', removeFile p t = (.ok (), t') ∧ resolve t' p = .ok a ∧ t'.lookup a = none ∧
      ChangesOnly (fun b => b = a) t t' := by
  obtain ⟨a, hresolve, hfile, hfolder⟩ := readBytes_ok_iff.1 h
  have hlookup := Folder.fileAt?_eq_some.1 hfile
  have hwithout : withoutFile t p = .ok (t.remove a) := by
    simp only [withoutFile, hresolve, hlookup, hfolder, Bool.false_eq_true, if_false]
  have hfolders : ∀ b, t.HasFolder b → (t.remove a).HasFolder b := fun b hb => hb.remove ht hlookup
  refine ⟨a, t.remove a, ?_, resolve_mono hfolders hresolve, Folder.lookup_remove_self ht hlookup,
    hfolders, ?_, fun _ => ht.remove hlookup⟩
  · simp only [removeFile, change, hwithout]
  · intro b hb
    exact Folder.fileAt?_remove_of_ne ht hlookup hb

end TypedTables.Files
