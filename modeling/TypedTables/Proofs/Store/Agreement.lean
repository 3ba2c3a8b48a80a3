/-
The two stores answer alike. A store in a folder that is empty, or missing and can be made, and an
empty store in memory give the same truth values, the same objects and the same refusals to any
sequence of operations on identifiers, as long as the names that are created are not too long for the
system. Main statement: `stores_alike`.

The simulation relates a file tree with the objects in memory: the folder of the store holds files
only, one for each object, and a missing folder stands for one with nothing in it. A folder is made by
the first object that is created and is never taken out.
-/
import Mathlib.Data.List.Forall2
import TypedTables.Proofs.Files.Contents
import TypedTables.Proofs.Files.Names
import TypedTables.Proofs.Store.Tree
import TypedTables.Store.Memory

namespace TypedTables.Store

open TypedTables.Files TypedTables.Naming

/-! ## Operations and replies -/

/-- What a store is asked for. -/
inductive Operation where
  | contains (name : String)
  | delete (name : String)
  | create (name : String) (object : ByteArray)
  | loadAll (name : String)

/-- What a store replies: whether it holds an object, whether a change was made, or some objects. -/
inductive Reply where
  | truth (b : Bool)
  | done (result : Except StoreError Unit)
  | objects (result : Except StoreError (List ByteArray))

section

variable {σ : Type}

/-- The reply of a store in a state to an operation, and its state after it. -/
def perform (store : ObjectStore σ) (s : σ) : Operation → Reply × σ
  | .contains name => (.truth (store.contains s name), s)
  | .delete name => let (result, s') := store.delete name s; (.done result, s')
  | .create name object => let (result, s') := store.create name object s; (.done result, s')
  | .loadAll name => (.objects (store.loadAll s name), s)

/-- The replies to operations one after the other. -/
def replies (store : ObjectStore σ) : σ → List Operation → List Reply
  | _, [] => []
  | s, op :: ops => (perform store s op).1 :: replies store (perform store s op).2 ops

end

/-- Two replies are alike when they are equal, or both refuse what is there already. -/
inductive Alike : Reply → Reply → Prop where
  | truth (b : Bool) : Alike (.truth b) (.truth b)
  | done : Alike (.done (.ok ())) (.done (.ok ()))
  | exists (what what' : String) :
      Alike (.done (.error (.alreadyExists what))) (.done (.error (.alreadyExists what')))
  | objects (objects : List ByteArray) : Alike (.objects (.ok objects)) (.objects (.ok objects))

/-! ## One folder and one list of objects -/

/-- What the folder of a store holds; nothing, if it is missing. -/
def contents (root : Path) (t : Folder) : Folder := (folderAt? t root).getD .empty

/-- The folder of a store holds one file for each object, and can be made with what it holds. -/
structure SameObjects (root : Path) (t : Folder) (m : Memory) : Prop where
  ascending : t.Ascending
  ready : ∃ t', makeFolders root t = (.ok (), t') ∧ folderAt? t' root = some (contents root t)
  files : ∀ n e, (contents root t).find? n = some e → (∃ bytes, e = .file bytes) ∧ Fits root n
  objects : ∀ name, m.objectsOf name = ((contents root t).fileAt? [fileName name]).toList

/-- What both stores hold under a name. -/
structure Stored (root : Path) (t : Folder) (m : Memory) (name : String) (object : Option ByteArray) :
    Prop where
  found : (contents root t).find? (fileName name) = object.map .file
  memory : m.objectsOf name = object.toList
  contains : Tree.contains root t name = object.isSome
  taken : pathExists t (Tree.pathFor root name) = object.isSome

variable {root : Path} {t : Folder} {m : Memory} {name : String}

theorem Stored.memory_contains {object : Option ByteArray} (h : Stored root t m name object) :
    m.contains name = object.isSome := by
  rw [Memory.contains, h.memory]
  cases object <;> rfl

theorem isEntryName_fileName (h : isIdentifier name = true) : IsEntryName (fileName name) :=
  isEntryName_of_identifier h (by decide) (by decide)

theorem fileName_inj {other : String} : fileName other = fileName name ↔ other = name :=
  String.append_left_inj _

theorem entryAt_pathFor (hname : isIdentifier name = true) (hroot : root.text ≠ "") {e : Entry} :
    entryAt t (Tree.pathFor root name) = .ok e ↔ ∃ inside, folderAt? t root = some inside ∧
      Fits root (fileName name) ∧ inside.find? (fileName name) = some e :=
  entryAt_join (isEntryName_fileName hname) hroot

theorem contents_of_folderAt? {inside : Folder} (h : folderAt? t root = some inside) :
    contents root t = inside := by
  rw [contents, h, Option.getD_some]

theorem folderAt?_of_find? {n : String} {e : Entry} (h : (contents root t).find? n = some e) :
    folderAt? t root = some (contents root t) := by
  unfold contents at h ⊢
  cases hf : folderAt? t root with
  | none => rw [hf] at h; cases h
  | some inside => rfl

namespace SameObjects

theorem ne_empty (h : SameObjects root t m) : root.text ≠ "" := by
  obtain ⟨t', -, hinside⟩ := h.ready
  exact ne_empty_of_folderAt? hinside

theorem holdsFiles (h : SameObjects root t m) : (contents root t).HoldsFiles := by
  intro n inside hn
  obtain ⟨⟨bytes, hfile⟩, -⟩ := h.files n _ hn
  cases hfile

theorem contents_ascending (h : SameObjects root t m) : (contents root t).Ascending := by
  unfold contents
  cases hf : folderAt? t root with
  | none => exact trivial
  | some inside =>
    obtain ⟨a, -, ha⟩ := folderAt?_eq_some.1 hf
    exact h.ascending.lookup ha

/-- The path of an object leads to what the folder holds under its name. -/
theorem entryAt_iff (h : SameObjects root t m) (hname : isIdentifier name = true) {e : Entry} :
    entryAt t (Tree.pathFor root name) = .ok e ↔ (contents root t).find? (fileName name) = some e := by
  rw [entryAt_pathFor hname h.ne_empty]
  constructor
  · rintro ⟨inside, hinside, -, hfind⟩
    rwa [contents_of_folderAt? hinside]
  · intro hfind
    exact ⟨_, folderAt?_of_find? hfind, (h.files _ _ hfind).2, hfind⟩

theorem stored (h : SameObjects root t m) (hname : isIdentifier name = true) :
    ∃ object, Stored root t m name object := by
  -- both questions about the path and the list in memory follow from the entry in the folder
  cases hfind : (contents root t).find? (fileName name) with
  | none =>
    have hnone : ∀ e, entryAt t (Tree.pathFor root name) ≠ .ok e := by
      intro e he
      rw [h.entryAt_iff hname, hfind] at he
      cases he
    refine ⟨none, hfind, ?_, ?_, ?_⟩
    · rw [h.objects, Folder.fileAt?_singleton, hfind]
      rfl
    · unfold Tree.contains isFile
      split
      · rename_i bytes he
        exact absurd he (hnone _)
      · rfl
    · unfold pathExists
      cases he : entryAt t (Tree.pathFor root name) with
      | error e => rfl
      | ok e => exact absurd he (hnone e)
  | some e =>
    obtain ⟨⟨bytes, rfl⟩, -⟩ := h.files _ _ hfind
    have hentry := (h.entryAt_iff hname).2 hfind
    refine ⟨some bytes, hfind, ?_, ?_, ?_⟩
    · rw [h.objects, Folder.fileAt?_singleton, hfind]
      rfl
    · simp only [Tree.contains, isFile, hentry, Option.isSome_some]
    · simp only [pathExists, hentry, Except.toOption, Option.isSome_some]

/-- The relation to a tree whose folder is there. -/
theorem of_folderAt? {inside : Folder} (ht : t.Ascending) (hinside : folderAt? t root = some inside)
    (hfiles : ∀ n e, inside.find? n = some e → (∃ bytes, e = .file bytes) ∧ Fits root n)
    (hobjects : ∀ name, m.objectsOf name = (inside.fileAt? [fileName name]).toList) :
    SameObjects root t m := by
  obtain rfl := contents_of_folderAt? hinside
  exact ⟨ht, ⟨t, makeFolders_of_folderAt? hinside, hinside⟩, hfiles, hobjects⟩

end SameObjects

/-! ## One operation -/

/-- What is asked for is named by an identifier, and what is created is not too long for the system. -/
def Operation.Permitted (root : Path) : Operation → Prop
  | .contains name | .delete name | .loadAll name => isIdentifier name = true
  | .create name _ => isIdentifier name = true ∧ Fits root (fileName name)

/-- The replies to an operation are alike, and the stores hold the same objects after it. -/
def AlikeStep (root : Path) (t : Folder) (m : Memory) (op : Operation) : Prop :=
  Alike (perform (treeStore root) t op).1 (perform memoryStore m op).1 ∧
    SameObjects root (perform (treeStore root) t op).2 (perform memoryStore m op).2

theorem alike_contains (h : SameObjects root t m) (hname : isIdentifier name = true) :
    AlikeStep root t m (.contains name) := by
  obtain ⟨object, hs⟩ := h.stored hname
  refine ⟨?_, h⟩
  simp only [perform, contains_treeStore, contains_memoryStore, hs.contains, hs.memory_contains]
  exact .truth _

theorem alike_loadAll (h : SameObjects root t m) (name : String) :
    AlikeStep root t m (.loadAll name) := by
  refine ⟨?_, h⟩
  have htree : Tree.objectsOf root t name = m.objectsOf name := by
    rw [h.objects, ← Folder.files_named h.contents_ascending h.holdsFiles]
    unfold Tree.objectsOf contents
    cases folderAt? t root <;> rfl
  simp only [perform, treeStore, memoryStore, htree]
  exact .objects _

theorem alike_delete (h : SameObjects root t m) (hname : isIdentifier name = true) :
    AlikeStep root t m (.delete name) := by
  obtain ⟨object, hs⟩ := h.stored hname
  cases object with
  | none =>
    -- the tree stays, and in memory the name held nothing
    have htree := Tree.delete_of_free hs.contains
    simp only [AlikeStep, perform, treeStore, memoryStore, htree]
    refine ⟨.done, h.ascending, h.ready, h.files, ?_⟩
    intro other
    rw [Memory.objectsOf_delete, ← h.objects]
    split_ifs with heq
    · rw [heq, hs.memory]
      rfl
    · rfl
  | some bytes =>
    -- a name that is held is in the folder, which is there then and stays
    have hinside := folderAt?_of_find? hs.found
    obtain ⟨t', hremove, htouch, hinside'⟩ := removeFile_join h.ascending (isEntryName_fileName hname)
      (h.files _ _ hs.found).2 hinside hs.found
    have htree : Tree.delete root name t = (.ok (), t') :=
      (Tree.delete_of_contains hs.contains).trans (Tree.files_of_ok hremove)
    simp only [AlikeStep, perform, treeStore, memoryStore, htree]
    refine ⟨.done, .of_folderAt? (htouch.ascending h.ascending) hinside' ?_ ?_⟩
    · intro n e hn
      rw [Folder.find?_erase h.contents_ascending] at hn
      split_ifs at hn
      exact h.files n e hn
    · intro other
      simp only [Memory.objectsOf_delete, Folder.fileAt?_erase h.contents_ascending, h.objects other,
        fileName_inj]
      split_ifs <;> rfl

/-- Where a name is free, the folder is made and the file is written in it. -/
theorem create_tree (h : SameObjects root t m) (hname : isIdentifier name = true)
    (hfits : Fits root (fileName name)) (hfree : Stored root t m name none) (object : ByteArray) :
    ∃ t', Tree.create root name object t = (.ok (), t') ∧ t'.Ascending ∧
      folderAt? t' root = some ((contents root t).insert (fileName name) (.file object)) := by
  -- making the folder leaves what it holds, so the name is still free
  obtain ⟨t₁, hmake, hinside⟩ := h.ready
  have hmade := touches_makeFolders root t
  rw [hmake] at hmade
  have hnot : ∀ g, (contents root t).find? (fileName name) ≠ some (.folder g) := by
    intro g hg
    rw [hfree.found] at hg
    cases hg
  obtain ⟨t', hwrite, htouch, hinside'⟩ :=
    writeFile_join (isEntryName_fileName hname) hfits hinside hnot object
  refine ⟨t', ?_, htouch.ascending (hmade.ascending h.ascending), hinside'⟩
  rw [Tree.create_of_free hfree.taken]
  exact Tree.files_of_ok ((bind_of_ok hmake).trans hwrite)

theorem alike_create (h : SameObjects root t m) (hname : isIdentifier name = true)
    (hfits : Fits root (fileName name)) (object : ByteArray) :
    AlikeStep root t m (.create name object) := by
  obtain ⟨held, hs⟩ := h.stored hname
  cases held with
  | some bytes =>
    have htree := Tree.create_of_taken hs.taken object
    have hmemory : m.create name object = .error (.alreadyExists name) := by
      rw [Memory.create, hs.memory_contains]
      rfl
    simp only [AlikeStep, perform, treeStore, memoryStore, htree, hmemory]
    exact ⟨.exists _ _, h⟩
  | none =>
    obtain ⟨t', htree, hascending, hinside⟩ := create_tree h hname hfits hs object
    have hmemory : m.create name object = .ok (m.addCopy name object) := by
      rw [Memory.create, hs.memory_contains]
      rfl
    simp only [AlikeStep, perform, treeStore, memoryStore, htree, hmemory]
    refine ⟨.done, .of_folderAt? hascending hinside ?_ ?_⟩
    · -- the new file is the one whose size is asked for
      intro n e hn
      rw [Folder.find?_insert] at hn
      split_ifs at hn with heq
      · cases hn
        exact ⟨⟨object, rfl⟩, heq ▸ hfits⟩
      · exact h.files n e hn
    · intro other
      simp only [Memory.objectsOf_addCopy, Folder.fileAt?_insert, h.objects other, hs.memory,
        fileName_inj]
      split_ifs <;> rfl

/-! ## Runs -/

theorem alike_perform (h : SameObjects root t m) {op : Operation} (hop : op.Permitted root) :
    AlikeStep root t m op := by
  cases op with
  | contains name => exact alike_contains h hop
  | delete name => exact alike_delete h hop
  | create name object => exact alike_create h hop.1 hop.2 object
  | loadAll name => exact alike_loadAll h name

theorem SameObjects.replies_alike : ∀ {ops : List Operation} {t : Folder} {m : Memory},
    SameObjects root t m → (∀ op ∈ ops, op.Permitted root) →
      List.Forall₂ Alike (replies (treeStore root) t ops) (replies memoryStore m ops)
  | [], _, _, _, _ => .nil
  | op :: ops, t, m, h, hops => by
    obtain ⟨hop, hops⟩ := List.forall_mem_cons.1 hops
    obtain ⟨halike, hsame⟩ := alike_perform h hop
    exact .cons halike (replies_alike hsame hops)

/-- A folder in which a store starts: it is there with nothing in it, or it is missing, and can be made
with nothing in it. -/
inductive StartsEmpty (root : Path) (t : Folder) : Prop where
  | empty (there : folderAt? t root = some .empty)
  | missing {t' : Folder} (missing : folderAt? t root = none) (made : makeFolders root t = (.ok (), t'))
      (empty : folderAt? t' root = some .empty)

theorem StartsEmpty.sameObjects (h : StartsEmpty root t) (ht : t.Ascending) :
    SameObjects root t Memory.empty := by
  have hcontents : contents root t = .empty := by
    cases h with
    | empty there => exact contents_of_folderAt? there
    | missing missing => rw [contents, missing]; rfl
  refine ⟨ht, ?_, ?_, ?_⟩
  · rw [hcontents]
    cases h with
    | empty there => exact ⟨t, makeFolders_of_folderAt? there, there⟩
    | missing missing made empty => exact ⟨_, made, empty⟩
  · intro n e hn
    rw [hcontents] at hn
    cases hn
  · intro name
    rw [hcontents]
    rfl

/-- A store in a folder that is empty, or missing and can be made, and an empty store in memory
reply alike to any operations on identifiers, if the names and the paths of the files that are
created are not too long. Paths are relative to the root of the tree: an absolute one leads to
nothing (`resolve`). -/
theorem stores_alike (ht : t.Ascending) (hstart : StartsEmpty root t) {ops : List Operation}
    (hops : ∀ op ∈ ops, op.Permitted root) :
    List.Forall₂ Alike (replies (treeStore root) t ops) (replies memoryStore Memory.empty ops) :=
  (hstart.sameObjects ht).replies_alike hops

instance (p : Path) (name : String) : Decidable (Fits p name) :=
  decidable_of_iff (name.utf8ByteSize ≤ maxNameSize ∧ (p.join name).text.utf8ByteSize < pathSizeLimit)
    ⟨fun h => ⟨h.1, h.2⟩, fun h => ⟨h.nameSize, h.pathSize⟩⟩

instance (root : Path) : ∀ op : Operation, Decidable (op.Permitted root)
  | .contains name | .delete name | .loadAll name =>
    inferInstanceAs (Decidable (isIdentifier name = true))
  | .create name _ =>
    inferInstanceAs (Decidable (isIdentifier name = true ∧ Fits root (fileName name)))

/-- Two names, one created twice and again after it was deleted, and a name that is never there. -/
def mixedOperations : List Operation :=
  [.loadAll "Items", .delete "Items", .create "Items" ⟨#[1]⟩, .create "Items" ⟨#[2]⟩,
    .create "_items" ⟨#[]⟩, .contains "Items", .delete "Items", .contains "Items",
    .create "Items" ⟨#[3]⟩, .loadAll "Items", .loadAll "_items", .contains "Item"]

/-- The folder is two levels below the root of a tree, and neither level is there. -/
theorem stores_alike_mixed : Folder.empty.Ascending ∧ StartsEmpty ⟨"assets/objects"⟩ .empty ∧
    (∀ op ∈ mixedOperations, op.Permitted ⟨"assets/objects"⟩) ∧
    List.Forall₂ Alike (replies (treeStore ⟨"assets/objects"⟩) .empty mixedOperations)
      (replies memoryStore Memory.empty mixedOperations) := by
  have hascending : Folder.empty.Ascending := trivial
  have hstart : StartsEmpty ⟨"assets/objects"⟩ .empty := .missing rfl rfl rfl
  have hops : ∀ op ∈ mixedOperations, op.Permitted ⟨"assets/objects"⟩ := by decide +kernel
  exact ⟨hascending, hstart, hops, stores_alike hascending hstart hops⟩

/-! ## What the system refuses -/

theorem pathExists_pathFor (hname : isIdentifier name = true) (hroot : root.text ≠ "") :
    pathExists t (Tree.pathFor root name) = true ↔ ∃ inside e, folderAt? t root = some inside ∧
      Fits root (fileName name) ∧ inside.find? (fileName name) = some e := by
  unfold pathExists
  cases he : entryAt t (Tree.pathFor root name) with
  | error err =>
    refine iff_of_false Bool.false_ne_true ?_
    rintro ⟨inside, e, h⟩
    rw [(entryAt_pathFor hname hroot).2 ⟨inside, h⟩] at he
    cases he
  | ok e =>
    obtain ⟨inside, h⟩ := (entryAt_pathFor hname hroot).1 he
    exact iff_of_true rfl ⟨inside, e, h⟩

/-- Where the folder cannot be made, no object is created. -/
theorem create_of_not_made (hname : isIdentifier name = true) (hroot : root.text ≠ "")
    (hmissing : folderAt? t root = none) {e : OsError} {t' : Folder}
    (hmake : makeFolders root t = (.error e, t')) (object : ByteArray) :
    Tree.create root name object t = (.error (.os e), t') := by
  have hfree : pathExists t (Tree.pathFor root name) = false := by
    rw [← Bool.not_eq_true, pathExists_pathFor hname hroot]
    rintro ⟨inside, -, hinside, -⟩
    rw [hmissing] at hinside
    cases hinside
  rw [Tree.create_of_free hfree, Tree.files_apply, bind_of_error hmake]
  rfl

/-- Under a name that is too long, or whose path is, no object is created. -/
theorem create_of_not_fits (hname : isIdentifier name = true) (hroot : root.text ≠ "")
    (hfits : ¬ Fits root (fileName name)) (object : ByteArray) (t : Folder) :
    ∃ e t', Tree.create root name object t = (.error (.os e), t') := by
  have hfree : pathExists t (Tree.pathFor root name) = false := by
    rw [← Bool.not_eq_true, pathExists_pathFor hname hroot]
    rintro ⟨-, -, -, hfits', -⟩
    exact hfits hfits'
  rw [Tree.create_of_free hfree, Tree.files_apply]
  -- the folder is made first, and may stay there without the object
  rcases hmake : makeFolders root t with ⟨e | _, t₁⟩
  · rw [bind_of_error hmake]
    exact ⟨e, t₁, rfl⟩
  · obtain ⟨e, hwrite⟩ := writeFile_of_not_fits (isEntryName_fileName hname) hroot hfits object t₁
    rw [bind_of_ok hmake, Tree.pathFor, hwrite]
    exact ⟨e, t₁, rfl⟩

/-- What the system refuses is created in memory, so the replies differ. -/
theorem not_alike_of_create {object : ByteArray} {e : OsError} {t' : Folder}
    (h : Tree.create root name object t = (.error (.os e), t')) :
    ¬ List.Forall₂ Alike (replies (treeStore root) t [.create name object])
      (replies memoryStore Memory.empty [.create name object]) := by
  simp only [replies, List.forall₂_cons, perform, treeStore, h]
  rintro ⟨hfirst, -⟩
  cases hfirst

/-- An identifier of 251 letters, so that the name of its file has 256 bytes. -/
def longName : String := String.ofList (List.replicate 251 'a')

theorem isIdentifier_longName : isIdentifier longName = true := by
  refine isIdentifier_iff.2 ⟨'a', List.replicate 250 'a', String.toList_ofList, by decide, ?_⟩
  intro c hc
  rw [List.eq_of_mem_replicate hc]
  decide

theorem not_fits_longName (root : Path) : ¬ Fits root (fileName longName) := by
  intro h
  exact absurd h.nameSize (by decide +kernel)

/-- The stores do not reply alike when an object is created under this name, nor when one is created
in a folder that would lie below a file. -/
theorem stores_differ :
    (isIdentifier longName = true ∧ folderAt? .empty ⟨"objects"⟩ = none ∧
      ¬ List.Forall₂ Alike (replies (treeStore ⟨"objects"⟩) .empty [.create longName ⟨#[1]⟩])
        (replies memoryStore Memory.empty [.create longName ⟨#[1]⟩])) ∧
    (isIdentifier "Items" = true ∧ folderAt? (.file "assets" ⟨#[]⟩ .empty) ⟨"assets/objects"⟩ = none ∧
      ¬ List.Forall₂ Alike
        (replies (treeStore ⟨"assets/objects"⟩) (.file "assets" ⟨#[]⟩ .empty) [.create "Items" ⟨#[1]⟩])
        (replies memoryStore Memory.empty [.create "Items" ⟨#[1]⟩])) := by
  refine ⟨⟨isIdentifier_longName, rfl, ?_⟩, by decide +kernel, rfl, ?_⟩
  · obtain ⟨e, t', hcreate⟩ := create_of_not_fits isIdentifier_longName (by decide)
      (not_fits_longName ⟨"objects"⟩) ⟨#[1]⟩ .empty
    exact not_alike_of_create hcreate
  · have hmake : makeFolders ⟨"assets/objects"⟩ (.file "assets" ⟨#[]⟩ .empty) =
        (.error .notAFolder, .file "assets" ⟨#[]⟩ .empty) := rfl
    exact not_alike_of_create (create_of_not_made (by decide +kernel) (by decide) rfl hmake _)

end TypedTables.Store
