/-
Which files are found as tables, and in which order. They are the files at any depth with the extension
of tables and something before the first dot of their names, which names the table; each is found once,
and their paths ascend part by part. The walk goes through the files in this order, with nothing left to
sort. Main statement: `discover_exact`.
-/
import Mathlib.Data.List.TakeWhile
import TypedTables.Proofs.Project.TableFile

namespace TypedTables.Project

open TypedTables.Files

/-! ## Names of files -/

/-- The name of a file that holds the table of some name. -/
structure NamesTable (name table : String) : Prop where
  ne_empty : table ≠ ""
  noDot : '.' ∉ table.toList
  front : ∃ behind, name = table ++ "." ++ behind
  ending : ∃ before extension, name = before ++ "." ++ extension ∧ before ≠ "" ∧
    extension.map Char.toLower = "csv"

/-- The stem is what stands before the first dot. -/
theorem stem_append {table : String} (h : '.' ∉ table.toList) (behind : String) :
    stem (table ++ "." ++ behind) = table := by
  rw [stem, toList_around_dot, (cut_at_dot h).1, String.ofList_toList]

theorem exists_stem {name : String} (h : '.' ∈ name.toList) :
    '.' ∉ (stem name).toList ∧ ∃ behind, name = stem name ++ "." ++ behind := by
  obtain ⟨front, rest, hname, hfront⟩ := List.eq_append_cons_of_mem h
  have hstem : stem name = String.ofList front := by rw [stem, hname, (cut_at_dot hfront).1]
  rw [hstem, String.toList_ofList]
  refine ⟨hfront, String.ofList rest, ?_⟩
  rw [← String.toList_inj, toList_around_dot, String.toList_ofList, String.toList_ofList, hname]

theorem exists_extension {name : String} (h : '.' ∈ name.toList) :
    ∃ before extension, name = before ++ "." ++ extension ∧ '.' ∉ extension.toList := by
  obtain ⟨behind, before, hname, hbehind⟩ := List.eq_append_cons_of_mem (List.mem_reverse.2 h)
  refine ⟨String.ofList before.reverse, String.ofList behind.reverse, ?_, by simpa using hbehind⟩
  rw [← String.toList_inj, toList_around_dot, String.toList_ofList, String.toList_ofList,
    ← List.reverse_reverse name.toList, hname]
  simp

theorem extension?_of_not_mem {name : String} (h : '.' ∉ name.toList) : extension? name = none := by
  have hall := ne_dot_of_not_mem (List.mem_reverse.not.2 h)
  unfold extension?
  rw [List.dropWhile_eq_nil_iff.2 hall]

/-- The extension is what stands behind the last dot, if something stands before this dot. -/
theorem extension?_eq_some_iff {name extension : String} : extension? name = some extension ↔
    '.' ∉ extension.toList ∧ ∃ before, name = before ++ "." ++ extension ∧ before ≠ "" := by
  constructor
  · intro h
    by_cases hdot : '.' ∈ name.toList
    · obtain ⟨before, last, rfl, hlast⟩ := exists_extension hdot
      rw [extension?_append before hlast] at h
      split_ifs at h with hbefore
      cases h
      exact ⟨hlast, before, rfl, hbefore⟩
    · rw [extension?_of_not_mem hdot] at h
      cases h
  · rintro ⟨hdot, before, rfl, hbefore⟩
    rw [extension?_append before hdot, if_neg hbefore]

theorem isTableName_iff {name : String} : isTableName name = true ↔ NamesTable name (stem name) := by
  unfold isTableName
  rw [Bool.and_eq_true, beq_iff_eq, Option.map_eq_some_iff]
  constructor
  · rintro ⟨⟨extension, hextension, hlower⟩, hstem⟩
    obtain ⟨-, before, hname, hbefore⟩ := extension?_eq_some_iff.1 hextension
    have hdot : '.' ∈ name.toList := by
      rw [hname, toList_around_dot]
      simp
    obtain ⟨hfirst, hbehind⟩ := exists_stem hdot
    exact ⟨by simpa using hstem, hfirst, hbehind, before, extension, hname, hbefore, hlower⟩
  · intro h
    obtain ⟨before, extension, hname, hbefore, hlower⟩ := h.ending
    refine ⟨⟨extension, extension?_eq_some_iff.2 ⟨?_, before, hname, hbefore⟩, hlower⟩, ?_⟩
    · intro hdot
      have hmem : '.' ∈ (extension.map Char.toLower).toList := by
        rw [String.toList_map]
        exact List.mem_map.2 ⟨'.', hdot, rfl⟩
      rw [hlower] at hmem
      exact absurd hmem (by decide)
    · simpa using h.ne_empty

theorem NamesTable.stem_eq {name table : String} (h : NamesTable name table) : stem name = table := by
  obtain ⟨behind, rfl⟩ := h.front
  exact stem_append h.noDot behind

/-! ## Paths -/

instance (name : String) : Decidable (IsFileName name) :=
  decidable_of_iff (name ≠ "" ∧ '/' ∉ name.toList ∧ name ≠ "." ∧ name ≠ "..")
    ⟨fun h => ⟨h.1, h.2.1, h.2.2.1, h.2.2.2⟩, fun h => ⟨h.ne_empty, h.noSlash, h.ne_dot, h.ne_dots⟩⟩

/-- The parts of a path below a folder are those of the folder and then the names. -/
theorem parts_joinAll {names : List String} (h : ∀ name ∈ names, IsFileName name) (p : Path) :
    (p.joinAll names).parts = p.parts ++ names := by
  induction names generalizing p with
  | nil => simp [Path.joinAll]
  | cons name names ih =>
    obtain ⟨hname, hnames⟩ := List.forall_mem_cons.1 h
    show ((p.join name).joinAll names).parts = _
    rw [ih hnames, Path.parts_join hname, List.append_assoc, List.singleton_append]

/-! ## Files found -/

theorem mem_walked {folder : Path} {inside : Folder} (h : inside.Ascending) {f : TableFile} :
    f ∈ walked folder inside ↔ ∃ dir name, inside.fileAt? (dir ++ [name]) = some f.bytes ∧
      NamesTable name f.name ∧ f.address = dir ++ [name] ∧ f.path = folder.joinAll (dir ++ [name]) := by
  unfold walked
  rw [List.mem_filterMap]
  constructor
  · rintro ⟨⟨address, bytes⟩, hentry, hf⟩
    unfold TableFile.ofEntry? at hf
    split at hf
    · cases hf
    · rename_i name hlast
      obtain ⟨dir, rfl⟩ := List.getLast?_eq_some_iff.1 hlast
      split_ifs at hf with hname
      cases hf
      exact ⟨dir, name, (Folder.mem_files h).1 hentry, isTableName_iff.1 hname, rfl, rfl⟩
  · obtain ⟨table, path, address, bytes⟩ := f
    rintro ⟨dir, name, hfile, hname, rfl, rfl⟩
    obtain rfl : stem name = table := hname.stem_eq
    refine ⟨(dir ++ [name], bytes), (Folder.mem_files h).2 hfile, ?_⟩
    unfold TableFile.ofEntry?
    simp [isTableName_iff.2 hname]

/-- The files found below a folder are exactly those whose names name a table, each under its path
and with the table that its name names. Sorting leaves the walk as it is, in which the paths ascend
part by part, so no file comes twice. Paths are relative to the root of the tree: an absolute one
leads to nothing (`resolve`). -/
theorem discover_exact {t inside : Folder} {folder : Path} (ht : t.Ascending)
    (hinside : folderAt? t folder = some inside)
    (hnames : ∀ x ∈ inside.files, ∀ name ∈ x.1, IsFileName name) :
    ∃ found, discover t folder = .ok found ∧ found = walked folder inside ∧
      (∀ f, f ∈ found ↔ ∃ dir name, inside.fileAt? (dir ++ [name]) = some f.bytes ∧
        NamesTable name f.name ∧ f.address = dir ++ [name] ∧ f.path = folder.joinAll (dir ++ [name])) ∧
      found.Pairwise fun f g => f.path.parts < g.path.parts := by
  obtain ⟨a, -, hlookup⟩ := folderAt?_eq_some.1 hinside
  have hascending := ht.lookup hlookup
  refine ⟨_, discover_eq ht hinside, rfl, fun f => mem_walked hascending, ?_⟩
  have hparts : ∀ f ∈ walked folder inside, f.path.parts = folder.parts ++ f.address := by
    intro f hf
    obtain ⟨dir, name, hfile, -, haddress, hpath⟩ := (mem_walked hascending).1 hf
    rw [hpath, haddress]
    exact parts_joinAll (hnames _ ((Folder.mem_files hascending).2 hfile)) folder
  refine (pairwise_walked folder hascending).imp_of_mem ?_
  intro f g hf hg hlt
  rw [hparts f hf, hparts g hg]
  exact List.append_left_lt hlt

/-- A folder, another one and a file with the same front in their names, which ascend one way by parts
and another way as texts; a folder with the name of a table file; and files that hold no table. -/
def nestedFolder : Folder :=
  .file ".csv" .empty <| .file ".x.csv" .empty <| .folder "a" (.file "Z.CSV" .empty .empty) <|
    .folder "a.b" (.file "x.v2.csv" .empty .empty) <| .file "a.csv" .empty <|
    .folder "b.csv" (.file "notes.txt" .empty .empty) .empty

def nestedTree : Folder := .folder "csv" nestedFolder .empty

theorem discover_exact_nested : nestedTree.Ascending ∧
    folderAt? nestedTree ⟨"csv"⟩ = some nestedFolder ∧
    (∀ x ∈ nestedFolder.files, ∀ name ∈ x.1, IsFileName name) ∧
    ∃ found, discover nestedTree ⟨"csv"⟩ = .ok found ∧
      found.map (fun f => (f.name, f.path.text)) =
        [("Z", "csv/a/Z.CSV"), ("x", "csv/a.b/x.v2.csv"), ("a", "csv/a.csv")] ∧
      found.Pairwise fun f g => f.path.parts < g.path.parts := by
  have hascending : nestedTree.Ascending := by decide +kernel
  have hinside : folderAt? nestedTree ⟨"csv"⟩ = some nestedFolder := rfl
  have hnames : ∀ x ∈ nestedFolder.files, ∀ name ∈ x.1, IsFileName name := by decide +kernel
  obtain ⟨found, hfound, rfl, -, hpairwise⟩ := discover_exact hascending hinside hnames
  exact ⟨hascending, hinside, hnames, _, hfound, by decide +kernel, hpairwise⟩

end TypedTables.Project
