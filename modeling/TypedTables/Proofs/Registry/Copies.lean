/-
What a fresh registry answers for a name over a store in a file tree. The walk through the store's
folder meets every file with the name of the object once, in the folder itself and in those below it,
so the object is decoded when it is the only one and is ambiguous beside copies of any depth
(`get_beside`).
-/
import TypedTables.Proofs.Files.Folder
import TypedTables.Proofs.Files.System
import TypedTables.Registry.Basic
import TypedTables.Store.Tree

namespace TypedTables.Registry

open TypedTables.Binding TypedTables.Files TypedTables.Store TypedTables.Text

/-! ## One object of several -/

/-- The answer of a fresh registry for a name with an object, beside some copies of it. -/
def answerBeside (copies : Nat) (name : String) (object : ByteArray) : Except LoadError Instance :=
  if copies = 0 then
    match DynamicTable.decode (Utf8.symbols object) with
    | .ok table => .ok ⟨0, ⟨.dynamic, table⟩⟩
    | .error fault => .error (.decode name fault)
  else .error (.ambiguous name (copies + 1))

theorem get_empty [TableTypes] (loader : Loader) (name : String) (type : Ty) :
    (Registry.empty.get loader name type).1 = (load loader name type).map (Instance.mk 0) := by
  have hslot : Registry.empty.slot? name = none := rfl
  simp only [get, hslot, Option.bind_none]
  rcases load loader name type with (_ | _ | _ | _ | _) | table <;> rfl

/-- The order in which a store gives an object and its copies does not matter. -/
theorem get_of_perm {loader : Loader} {name : String} {object : ByteArray} {objects copies : List ByteArray}
    (h : loader name = .ok objects) (hperm : objects.Perm (object :: copies)) :
    (Registry.empty.get loader name TableType.dynamic).1 = answerBeside copies.length name object := by
  rw [get_empty, answerBeside, load, h]
  cases copies with
  | nil =>
    rw [List.perm_singleton.1 hperm]
    simp only [List.length_nil, if_true]
    cases hdecode : DynamicTable.decode (Utf8.symbols object) with
    | error fault | ok table =>
      have htyped : TableTypes.decode TableType.dynamic object = _ := hdecode
      simp only [htyped]
      rfl
  | cons copy rest =>
    have hlength := hperm.length_eq
    rw [if_neg (by simp)]
    rcases objects with _ | ⟨_, _ | ⟨_, _⟩⟩
    · cases hlength
    · simp at hlength
    · simp only [hlength]
      rfl

/-! ## The walk -/

/-- In a folder with a file, the walk meets the file and each other one of its name below once. -/
theorem exists_copies {f : Folder} {name : String} {object : ByteArray} (hf : f.Ascending)
    (h : f.fileAt? [name] = some object) : ∃ copies : List (Address × ByteArray),
      (f.files.filter fun x => x.1.getLast? == some name).Perm (([name], object) :: copies) ∧
      (copies.map Prod.fst).Nodup ∧ ∀ a, a ∈ copies.map Prod.fst ↔
        a ≠ [name] ∧ a.getLast? = some name ∧ (f.fileAt? a).isSome := by
  have hhere : ([name], object) ∈ f.files.filter fun x => x.1.getLast? == some name :=
    List.mem_filter.2 ⟨(Folder.mem_files hf).2 h, by simp⟩
  obtain ⟨front, back, hsplit⟩ := List.append_of_mem hhere
  have hperm : (f.files.filter fun x => x.1.getLast? == some name).Perm
      (([name], object) :: (front ++ back)) := by
    rw [hsplit]
    exact List.perm_middle
  -- the walk never comes to an address again
  have hnodup : ((f.files.filter fun x => x.1.getLast? == some name).map Prod.fst).Nodup := by
    rw [List.Nodup, List.pairwise_map]
    exact ((Folder.pairwise_files hf).filter _).imp fun hlt => ne_of_lt hlt
  obtain ⟨hfresh, hnodup⟩ := List.nodup_cons.1 ((hperm.map Prod.fst).nodup_iff.1 hnodup)
  refine ⟨front ++ back, hperm, hnodup, ?_⟩
  intro a
  have hnamed : (∃ bytes, (a, bytes) ∈ f.files.filter fun x => x.1.getLast? == some name) ↔
      a.getLast? = some name ∧ (f.fileAt? a).isSome := by
    simp only [List.mem_filter, Folder.mem_files hf, beq_iff_eq, Option.isSome_iff_exists, and_comm]
    exact exists_and_left
  rw [← hnamed]
  constructor
  · intro ha
    refine ⟨fun he => hfresh (he ▸ ha), ?_⟩
    obtain ⟨x, hx, rfl⟩ := List.mem_map.1 ha
    exact ⟨x.2, hperm.mem_iff.2 (List.mem_cons_of_mem _ hx)⟩
  · rintro ⟨hne, bytes, hmem⟩
    rcases List.mem_cons.1 (hperm.mem_iff.1 hmem) with heq | hmem
    · exact absurd (congrArg Prod.fst heq) hne
    · exact List.mem_map.2 ⟨_, hmem, rfl⟩

/-- A fresh registry over a tree with an object in the store's folder answers with the object if no
other file below has its name, and counts them all otherwise. -/
theorem get_beside {objects : Path} {t : Folder} {dir : Address} {name : String} {object : ByteArray}
    (ht : t.Ascending) (hresolve : resolve t objects = .ok dir) (hdir : t.HasFolder dir)
    (hobject : t.fileAt? (dir ++ [fileName name]) = some object) :
    ∃ copies : List Address, copies.Nodup ∧
      (∀ a, a ∈ copies ↔ a ≠ [fileName name] ∧ a.getLast? = some (fileName name) ∧
        (t.fileAt? (dir ++ a)).isSome) ∧
      (Registry.empty.get ((treeStore objects).loadAll t) name TableType.dynamic).1 =
        answerBeside copies.length name object := by
  obtain ⟨inside, hinside⟩ := hdir
  have hfile : ∀ a, t.fileAt? (dir ++ a) = inside.fileAt? a := by
    intro a
    rw [Folder.fileAt?, Folder.lookup_append hinside]
    rfl
  rw [hfile] at hobject
  obtain ⟨copies, hperm, hnodup, hcopies⟩ := exists_copies (ht.lookup hinside) hobject
  have hload : (treeStore objects).loadAll t name =
      .ok ((inside.files.filter fun x => x.1.getLast? == some (fileName name)).map Prod.snd) := by
    show Except.ok (Tree.objectsOf objects t name) = _
    rw [Tree.objectsOf, folderAt?_eq_some.2 ⟨dir, hresolve, hinside⟩]
  refine ⟨copies.map Prod.fst, hnodup, ?_, ?_⟩
  · intro a
    rw [hcopies, hfile]
  · have hget := get_of_perm hload (hperm.map Prod.snd)
    rwa [List.length_map] at hget ⊢

end TypedTables.Registry
