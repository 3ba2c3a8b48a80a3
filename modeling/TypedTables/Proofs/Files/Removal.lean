/-
What taking a file out of a tree changes: in a tree with ascending names nothing but the file itself,
so every folder and every file with another name stays (`touches_removeFile`).
-/
import TypedTables.Proofs.Files.System

namespace TypedTables.Files

namespace Folder

variable {f : Folder} {e : Entry}

/-! ## One folder -/

theorem erase_cons (name n : String) (e : Entry) (rest : Folder) :
    (cons n e rest).erase name = if name = n then rest else cons n e (rest.erase name) := by
  cases e <;> rfl

theorem mem_names_erase {name m : String} (h : m ∈ (f.erase name).names) : m ∈ f.names := by
  induction f using cons_induction with
  | empty => exact h
  | cons n e rest ih =>
    rw [erase_cons] at h
    rw [names_cons, List.mem_cons]
    split_ifs at h
    · exact .inr h
    · rw [names_cons, List.mem_cons] at h
      exact h.imp_right ih

theorem find?_erase {name : String} (h : f.Ascending) (m : String) :
    (f.erase name).find? m = if m = name then none else f.find? m := by
  induction f using cons_induction with
  | empty => simp [erase, find?]
  | cons n e rest ih =>
    obtain ⟨hn, -, hrest⟩ := ascending_cons.1 h
    rw [erase_cons, find?_cons]
    by_cases hname : name = n
    · subst hname
      rw [if_pos rfl]
      by_cases hm : m = name
      · -- the name does not come again
        subst hm
        rw [if_pos rfl, ← Option.not_isSome_iff_eq_none, find?_isSome]
        exact fun hmem => lt_irrefl m (hn m hmem)
      · rw [if_neg hm, if_neg hm]
    · rw [if_neg hname, find?_cons, ih hrest]
      grind

theorem Ascending.erase (h : f.Ascending) (name : String) : (f.erase name).Ascending := by
  induction f using cons_induction with
  | empty => exact h
  | cons n e rest ih =>
    obtain ⟨hn, he, hrest⟩ := ascending_cons.1 h
    rw [erase_cons]
    split_ifs
    · exact hrest
    · exact ascending_cons.2 ⟨fun m hm => hn m (mem_names_erase hm), he, ih hrest⟩

/-! ## Addresses -/

/-- A file is in the folder itself or below one of its folders. -/
theorem lookup_file_cases {name : String} {rest : Address} {bytes : ByteArray}
    (h : f.lookup (name :: rest) = some (.file bytes)) :
    (rest = [] ∧ f.find? name = some (.file bytes)) ∨
      ∃ g, rest ≠ [] ∧ f.find? name = some (.folder g) ∧ g.lookup rest = some (.file bytes) := by
  rw [lookup_cons] at h
  obtain ⟨e, he, h⟩ := Option.bind_eq_some_iff.1 h
  cases rest with
  | nil =>
    rw [at?_nil] at h
    exact .inl ⟨rfl, he.trans h⟩
  | cons n ns =>
    cases e with
    | file b => cases h
    | folder g => exact .inr ⟨g, by simp, he, h⟩

theorem remove_cons_of_folder {name : String} {rest : Address} {g : Folder} (hrest : rest ≠ [])
    (hg : f.find? name = some (.folder g)) :
    f.remove (name :: rest) = f.insert name (.folder (g.remove rest)) := by
  obtain ⟨n, ns, rfl⟩ := List.exists_cons_of_ne_nil hrest
  rw [remove, hg]
  exact fun h => by cases h

theorem lookup_remove_cons {name : String} {rest : Address} {g : Folder} (hrest : rest ≠ [])
    (hg : f.find? name = some (.folder g)) (b : Address) :
    (f.remove (name :: rest)).lookup (name :: b) = (g.remove rest).lookup b := by
  rw [remove_cons_of_folder hrest hg]
  exact lookup_cons_of_find? (by rw [find?_insert, if_pos rfl]) b

theorem lookup_remove_of_ne {name m : String} (hf : f.Ascending) (hm : m ≠ name) {rest : Address}
    {bytes : ByteArray} (h : f.lookup (name :: rest) = some (.file bytes)) (b : Address) :
    (f.remove (name :: rest)).lookup (m :: b) = f.lookup (m :: b) := by
  rcases lookup_file_cases h with ⟨rfl, -⟩ | ⟨g, hrest, hg, -⟩
  · rw [remove, lookup_cons, lookup_cons, find?_erase hf, if_neg hm]
  · rw [remove_cons_of_folder hrest hg, lookup_cons, lookup_cons, find?_insert, if_neg hm]

/-! ## Taking a file out -/

/-- Every file but the one taken out stays as it is. -/
theorem fileAt?_remove_of_ne {a b : Address} {bytes : ByteArray} (hf : f.Ascending)
    (ha : f.lookup a = some (.file bytes)) (hne : b ≠ a) : (f.remove a).fileAt? b = f.fileAt? b := by
  induction a generalizing f b with
  | nil => cases ha
  | cons name rest ih =>
    cases b with
    | nil => rw [fileAt?_nil, fileAt?_nil]
    | cons m b =>
      unfold fileAt?
      by_cases hm : m = name
      · subst hm
        have hb : b ≠ rest := fun h => hne (h ▸ rfl)
        rcases lookup_file_cases ha with ⟨rfl, hfile⟩ | ⟨g, hrest, hg, hfile⟩
        · -- nothing was below the file, and nothing is there now
          have hnone : f.lookup (m :: b) = none :=
            lookup_cons_of_not_folder hb fun inside hi => by rw [hfile] at hi; cases hi
          rw [hnone, remove, lookup_cons, find?_erase hf, if_pos rfl]
          rfl
        · rw [lookup_remove_cons hrest hg, lookup_cons_of_find? hg]
          exact ih (hf.find? hg) hfile hb
      · rw [lookup_remove_of_ne hf hm ha]

/-- A file that is taken out is gone. -/
theorem lookup_remove_self {a : Address} {bytes : ByteArray} (hf : f.Ascending)
    (ha : f.lookup a = some (.file bytes)) : (f.remove a).lookup a = none := by
  induction a generalizing f with
  | nil => cases ha
  | cons name rest ih =>
    rcases lookup_file_cases ha with ⟨rfl, -⟩ | ⟨g, hrest, hg, hfile⟩
    · rw [remove, lookup_singleton, find?_erase hf, if_pos rfl]
    · rw [lookup_remove_cons hrest hg, ih (hf.find? hg) hfile]

/-- No folder goes with a file. -/
theorem HasFolder.remove {a b : Address} {bytes : ByteArray} (hf : f.Ascending)
    (ha : f.lookup a = some (.file bytes)) (h : f.HasFolder b) : (f.remove a).HasFolder b := by
  induction a generalizing f b with
  | nil => cases ha
  | cons name rest ih =>
    cases b with
    | nil => exact hasFolder_nil _
    | cons m b =>
      by_cases hm : m = name
      · subst hm
        obtain ⟨g', hg', hb⟩ := exists_find?_of_hasFolder h
        rcases lookup_file_cases ha with ⟨-, hfile⟩ | ⟨g, hrest, hg, hfile⟩
        · rw [hfile] at hg'; cases hg'
        · cases hg.symm.trans hg'
          obtain ⟨inside, hi⟩ := ih (hf.find? hg) hfile hb
          exact ⟨inside, by rw [lookup_remove_cons hrest hg, hi]⟩
      · obtain ⟨inside, hi⟩ := h
        exact ⟨inside, by rw [lookup_remove_of_ne hf hm ha, hi]⟩

theorem Ascending.remove {a : Address} {bytes : ByteArray} (hf : f.Ascending)
    (ha : f.lookup a = some (.file bytes)) : (f.remove a).Ascending := by
  induction a generalizing f with
  | nil => cases ha
  | cons name rest ih =>
    rcases lookup_file_cases ha with ⟨rfl, -⟩ | ⟨g, hrest, hg, hfile⟩
    · exact hf.erase name
    · rw [remove_cons_of_folder hrest hg]
      exact Ascending.insert (e := .folder (g.remove rest)) (ih (hf.find? hg) hfile) hf

end Folder

/-- Taking a file out touches the last name of its path. -/
theorem touches_removeFile {name : String} (hname : IsFileName name) (p : Path) {t : Folder}
    (ht : t.Ascending) : Touches (· = name) t (removeFile (p.join name) t).2 := by
  rcases change_cases (fun root => withoutFile root (p.join name)) t with ⟨e, h⟩ | ⟨t', hw, h⟩
  · rw [removeFile, h]; exact .refl t
  · rw [removeFile, h]
    unfold withoutFile at hw
    split at hw
    · cases hw
    · rename_i a hresolve
      obtain ⟨dir, rfl, -⟩ := exists_dir_of_resolve hname hresolve
      split at hw
      · cases hw
      · cases hw
      · rename_i bytes hfile
        split_ifs at hw
        cases hw
        refine ⟨fun b hb => hb.remove ht hfile, ?_, fun _ => ht.remove hfile⟩
        intro b m hm
        refine Folder.fileAt?_remove_of_ne ht hfile ?_
        intro heq
        exact hm (List.singleton_inj.1 (List.append_inj_right' heq rfl))

end TypedTables.Files
