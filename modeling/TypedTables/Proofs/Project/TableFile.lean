/-
Finding table files. In a tree with ascending names the walk meets them in the order of their
addresses already, so sorting changes nothing, and a change of the tree that touches no file with
the name of a table leaves them as they were.
-/
import TypedTables.Project.TableFile
import TypedTables.Proofs.Files.System

namespace TypedTables.Project

open TypedTables.Files

/-! ## Names -/

theorem ne_dot_of_not_mem {cs : List Char} (h : '.' ∉ cs) : ∀ c ∈ cs, (c != '.') = true := by
  intro c hc
  rw [bne_iff_ne]
  rintro rfl
  exact h hc

/-- A text with a dot is cut at the first one. -/
theorem cut_at_dot {front rest : List Char} (h : '.' ∉ front) :
    (front ++ '.' :: rest).takeWhile (fun c => c != '.') = front ∧
      (front ++ '.' :: rest).dropWhile (fun c => c != '.') = '.' :: rest := by
  have hall := ne_dot_of_not_mem h
  rw [List.takeWhile_append_of_pos hall, List.dropWhile_append_of_pos hall]
  simp

theorem toList_around_dot (front ending : String) :
    (front ++ "." ++ ending).toList = front.toList ++ '.' :: ending.toList := by
  simp

/-- The extension stands behind the last dot, unless nothing stands before this dot. -/
theorem extension?_append (front : String) {ending : String} (h : '.' ∉ ending.toList) :
    extension? (front ++ "." ++ ending) = if front = "" then none else some ending := by
  have hreverse : (front ++ "." ++ ending).toList.reverse =
      ending.toList.reverse ++ '.' :: front.toList.reverse := by
    rw [toList_around_dot, List.reverse_append, List.reverse_cons, List.append_assoc,
      List.singleton_append]
  obtain ⟨htake, hdrop⟩ := @cut_at_dot _ front.toList.reverse (List.mem_reverse.not.2 h)
  unfold extension?
  rw [hreverse, htake, hdrop]
  by_cases hfront : front = ""
  · rw [if_pos hfront, hfront]
    rfl
  · obtain ⟨c, rest, hrest⟩ := List.exists_cons_of_ne_nil
      (List.reverse_ne_nil_iff.2 (String.toList_eq_nil_iff.not.2 hfront))
    rw [if_neg hfront, hrest]
    simp

/-- A name with another extension than that of tables is no table's. -/
theorem isTableName_append (front ending : String) (h : '.' ∉ ending.toList)
    (he : ending.map Char.toLower ≠ "csv") : isTableName (front ++ "." ++ ending) = false := by
  unfold isTableName
  rw [extension?_append front h]
  split_ifs <;> simp [he]

/-! ## Walks -/

theorem walked_file (folder : Path) {name : String} (bytes : ByteArray) (h : isTableName name = true) :
    walked folder (.file name bytes .empty) = [⟨stem name, folder.joinAll [name], [name], bytes⟩] := by
  simp [walked, Folder.files, TableFile.ofEntry?, h]

theorem walked_eq (folder : Path) (inside : Folder) : walked folder inside =
    (inside.files.filter fun x => x.1.getLast?.any isTableName).filterMap
      (TableFile.ofEntry? folder) := by
  rw [walked, List.filterMap_filter]
  refine List.filterMap_congr ?_
  intro x _
  unfold TableFile.ofEntry?
  cases x.1.getLast? with
  | none => simp
  | some name => by_cases hn : isTableName name = true <;> simp [hn]

theorem address_eq {folder : Path} {entry : Address × ByteArray} {f : TableFile}
    (h : TableFile.ofEntry? folder entry = some f) : f.address = entry.1 := by
  unfold TableFile.ofEntry? at h
  split at h
  · cases h
  · split_ifs at h
    cases h; rfl

theorem isAtOrBefore_of_lt : ∀ {a b : Address}, a < b → isAtOrBefore a b = true
  | [], _, _ => by simp [isAtOrBefore]
  | _ :: _, [], h => absurd h (List.not_lt_nil _)
  | x :: as, y :: bs, h => by
    rw [isAtOrBefore]
    rcases List.cons_lt_cons_iff.1 h with hlt | ⟨rfl, hlt⟩
    · rw [if_pos hlt]
    · rw [if_neg (lt_irrefl x), if_pos rfl, isAtOrBefore_of_lt hlt]

theorem pairwise_walked (folder : Path) {inside : Folder} (h : inside.Ascending) :
    (walked folder inside).Pairwise fun f g => f.address < g.address := by
  rw [walked, List.pairwise_filterMap]
  refine (Folder.pairwise_files h).imp ?_
  intro x y hxy f hf g hg
  rwa [address_eq hf, address_eq hg]

theorem discover_eq {t inside : Folder} {folder : Path} (ht : t.Ascending)
    (h : folderAt? t folder = some inside) : discover t folder = .ok (walked folder inside) := by
  obtain ⟨a, -, hlookup⟩ := folderAt?_eq_some.1 h
  -- the walk is in order already
  have hsorted : (walked folder inside).Pairwise fun f g => isAtOrBefore f.address g.address = true :=
    (pairwise_walked folder (ht.lookup hlookup)).imp isAtOrBefore_of_lt
  rw [discover, h]
  simp only [List.mergeSort_of_pairwise hsorted]

/-- The table files that are found have addresses of their own, in ascending order. -/
theorem pairwise_discover {t : Folder} {folder : Path} {found : List TableFile} (ht : t.Ascending)
    (h : discover t folder = .ok found) : found.Pairwise fun f g => f.address < g.address := by
  cases hinside : folderAt? t folder with
  | none => rw [discover, hinside] at h; cases h
  | some inside =>
    obtain ⟨a, -, hlookup⟩ := folderAt?_eq_some.1 hinside
    cases (discover_eq ht hinside).symm.trans h
    exact pairwise_walked folder (ht.lookup hlookup)

/-- The table files of a folder are found again after a change that touches none of them. -/
theorem discover_of_touches {names : String → Prop} {t t' : Folder} {folder : Path} (h : Touches names t t')
    (ht : t.Ascending) (hn : ∀ n, names n → isTableName n = false) (hf : isFolder t folder = true) :
    discover t' folder = discover t folder := by
  obtain ⟨inside, hinside⟩ := Option.isSome_iff_exists.1 hf
  obtain ⟨a, hresolve, hlookup⟩ := folderAt?_eq_some.1 hinside
  obtain ⟨inside', hlookup'⟩ := h.folders a ⟨inside, hlookup⟩
  have hinside' : folderAt? t' folder = some inside' :=
    folderAt?_eq_some.2 ⟨a, resolve_mono h.folders hresolve, hlookup'⟩
  have hwalk : walked folder inside' = walked folder inside := by
    rw [walked_eq, walked_eq]
    refine congrArg _ (Folder.files_filter_eq (p := fun b => b.getLast?.any isTableName)
      ((h.ascending ht).lookup hlookup') (ht.lookup hlookup) ?_)
    intro b hb
    cases hlast : b.getLast? with
    | none => rw [hlast] at hb; cases hb
    | some name =>
      rw [hlast, Option.any_some] at hb
      obtain ⟨dir, rfl⟩ := List.getLast?_eq_some_iff.1 hlast
      have hkept : ¬ names name := by
        intro hname
        rw [hn name hname] at hb; cases hb
      have hfile := h.files (a ++ dir) name hkept
      unfold Folder.fileAt? at hfile ⊢
      rwa [List.append_assoc, Folder.lookup_append hlookup', Folder.lookup_append hlookup] at hfile
  rw [discover_eq (h.ascending ht) hinside', discover_eq ht hinside, hwalk]

end TypedTables.Project
