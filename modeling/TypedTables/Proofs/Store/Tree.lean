/-
What the store in a file tree leaves alone: creating and deleting the object of a name touch no file
but the one with the object's name.
-/
import TypedTables.Proofs.Files.Removal
import TypedTables.Store.Tree

namespace TypedTables.Store

open TypedTables.Files

namespace Tree

/-- As operations of the store, operations on files do what they do. -/
theorem files_apply {α : Type} (f : FileM α) (t : Folder) :
    files f t = ((f t).1.mapError StoreError.os, (f t).2) := rfl

theorem files_snd {α : Type} (f : FileM α) (t : Folder) : (files f t).2 = (f t).2 := rfl

theorem files_of_ok {α : Type} {f : FileM α} {t t' : Folder} {a : α} (h : f t = (.ok a, t')) :
    files f t = (.ok a, t') := by
  rw [files_apply, h]
  rfl

theorem files_cases {α : Type} {f : FileM α} {t t' : Folder} {r : Except StoreError α}
    (h : files f t = (r, t')) :
    (∃ a, f t = (.ok a, t') ∧ r = .ok a) ∨ ∃ e, f t = (.error e, t') ∧ r = .error (.os e) := by
  rw [files_apply] at h
  rcases hf : f t with ⟨e | a, t₁⟩
  · rw [hf] at h; cases h
    exact .inr ⟨e, rfl, rfl⟩
  · rw [hf] at h; cases h
    exact .inl ⟨a, rfl, rfl⟩

section

variable {folder : Path} {t : Folder} {name : String}

theorem delete_of_free (h : contains folder t name = false) : delete folder name t = (.ok (), t) := by
  unfold delete
  rw [if_neg (by simp [h])]

theorem delete_of_contains (h : contains folder t name = true) :
    delete folder name t = files (removeFile (pathFor folder name)) t := by
  unfold delete
  rw [if_pos h]

theorem create_of_taken (h : pathExists t (pathFor folder name) = true) (object : ByteArray) :
    create folder name object t = (.error (.alreadyExists (pathFor folder name).text), t) := by
  unfold create
  simp only [if_pos h]

theorem create_of_free (h : pathExists t (pathFor folder name) = false) (object : ByteArray) :
    create folder name object t =
      files (do makeFolders folder; writeFile (pathFor folder name) object) t := by
  unfold create
  simp only [h, Bool.false_eq_true, if_false]

end

theorem touches_delete (folder : Path) {name : String} (hname : IsFileName (fileName name)) {t : Folder}
    (ht : t.Ascending) : Touches (· = fileName name) t ((treeStore folder).delete name t).2 := by
  show Touches _ t (delete folder name t).2
  unfold delete
  split_ifs
  · rw [files_snd]
    exact touches_removeFile hname folder ht
  · exact .refl t

theorem touches_create (folder : Path) {name : String} (hname : IsFileName (fileName name))
    (object : ByteArray) (t : Folder) :
    Touches (· = fileName name) t ((treeStore folder).create name object t).2 := by
  show Touches _ t (create folder name object t).2
  unfold create
  simp only
  split_ifs
  · exact .refl t
  · rw [files_snd]
    refine Touches.bind ((touches_makeFolders folder t).mono fun _ h => h.elim) ?_
    intro _ t'
    exact touches_writeFile hname folder object t'

end Tree

end TypedTables.Store
