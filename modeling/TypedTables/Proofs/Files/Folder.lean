/-
What putting an entry into a file tree changes. A file or an empty folder put where no folder is
leaves every folder where it is and every other file as it is. A tree with ascending names is known
by the files at its addresses: the walk lists them in ascending order.
-/
import Mathlib.Data.List.Sort
import Mathlib.Data.String.Basic
import TypedTables.Files.Folder

namespace TypedTables.Files

/-- What an address leads to from an entry on. -/
def Entry.at? (rest : Address) : Entry → Option Entry
  | .file bytes => if rest.isEmpty then some (.file bytes) else none
  | .folder inside => inside.lookup rest

/-- A file, or a folder with nothing in it. -/
inductive Entry.IsLeaf : Entry → Prop where
  | file (bytes : ByteArray) : IsLeaf (.file bytes)
  | folder : IsLeaf (.folder .empty)

/-- Names ascend in the folder, if the entry is one. -/
def Entry.Ascending : Entry → Prop
  | .file _ => True
  | .folder inside => inside.Ascending

theorem Entry.IsLeaf.ascending {e : Entry} (h : e.IsLeaf) : e.Ascending := by
  cases h <;> exact trivial

namespace Folder

variable {f : Folder} {e : Entry}

/-- The bytes of the file at an address. -/
def fileAt? (a : Address) (f : Folder) : Option ByteArray :=
  match f.lookup a with
  | some (.file bytes) => some bytes
  | _ => none

def HasFolder (a : Address) (f : Folder) : Prop := ∃ inside, f.lookup a = some (.folder inside)

theorem hasFolder_nil (f : Folder) : f.HasFolder [] := ⟨f, rfl⟩

theorem fileAt?_nil (f : Folder) : f.fileAt? [] = none := rfl

theorem fileAt?_eq_some {a : Address} {bytes : ByteArray} :
    f.fileAt? a = some bytes ↔ f.lookup a = some (.file bytes) := by
  unfold fileAt?
  split
  · rename_i h
    simp [h]
  · rename_i h
    exact iff_of_false (by simp) (h bytes)

/-! ## One folder -/

/-- A folder is nothing, or an entry of some name followed by the rest. -/
theorem cons_induction {P : Folder → Prop} (empty : P .empty)
    (cons : ∀ n e rest, P rest → P (Folder.cons n e rest)) : ∀ f, P f
  | .empty => empty
  | .file n bytes rest => cons n (.file bytes) rest (cons_induction empty cons rest)
  | .folder n inside rest => cons n (.folder inside) rest (cons_induction empty cons rest)

theorem find?_cons (n m : String) (e : Entry) (f : Folder) :
    (cons n e f).find? m = if m = n then some e else f.find? m := by
  cases e <;> rfl

theorem names_cons (n : String) (e : Entry) (f : Folder) : (cons n e f).names = n :: f.names := by
  cases e <;> rfl

theorem ascending_cons {n : String} {e : Entry} {f : Folder} :
    (cons n e f).Ascending ↔ (∀ m ∈ f.names, n < m) ∧ e.Ascending ∧ f.Ascending := by
  cases e <;> simp [cons, Ascending, Entry.Ascending]

theorem insert_cons (name n : String) (e e' : Entry) (rest : Folder) :
    (cons n e' rest).insert name e =
      if name < n then cons name e (cons n e' rest)
      else if name = n then cons name e rest
      else cons n e' (rest.insert name e) := by
  cases e' <;> rfl

theorem find?_insert (name m : String) (e : Entry) (f : Folder) :
    (f.insert name e).find? m = if m = name then some e else f.find? m := by
  induction f using cons_induction with
  | empty => rw [insert, find?_cons]
  | cons n e' rest ih =>
    rw [insert_cons]
    split_ifs <;> grind [find?_cons]

theorem mem_names_insert {name m : String} (h : m ∈ (f.insert name e).names) :
    m = name ∨ m ∈ f.names := by
  induction f using cons_induction with
  | empty => simpa [insert, names_cons, names] using h
  | cons n e' rest ih =>
    rw [insert_cons] at h
    split_ifs at h
    · simpa [names_cons] using h
    · rw [names_cons, List.mem_cons] at h ⊢
      exact h.imp_right .inr
    · rw [names_cons, List.mem_cons] at h ⊢
      rcases h with rfl | h
      · exact .inr (.inl rfl)
      · exact (ih h).imp_right .inr

theorem Ascending.insert {name : String} (he : e.Ascending) (h : f.Ascending) :
    (f.insert name e).Ascending := by
  induction f using cons_induction with
  | empty => exact ascending_cons.2 ⟨by simp [names], he, trivial⟩
  | cons n e' rest ih =>
    obtain ⟨hn, he', hrest⟩ := ascending_cons.1 h
    rw [insert_cons]
    split_ifs with hlt heq
    · refine ascending_cons.2 ⟨?_, he, h⟩
      intro m hm
      rw [names_cons, List.mem_cons] at hm
      rcases hm with rfl | hm
      · exact hlt
      · exact hlt.trans (hn m hm)
    · exact ascending_cons.2 ⟨heq ▸ hn, he, hrest⟩
    · refine ascending_cons.2 ⟨?_, he', ih hrest⟩
      intro m hm
      rcases mem_names_insert hm with rfl | hm
      · exact lt_of_le_of_ne (not_lt.1 hlt) (Ne.symm heq)
      · exact hn m hm

theorem find?_isSome {m : String} : (f.find? m).isSome ↔ m ∈ f.names := by
  induction f using cons_induction with
  | empty => simp [find?, names]
  | cons n e' rest ih =>
    rw [find?_cons, names_cons, List.mem_cons, ← ih]
    by_cases h : m = n <;> simp [h]

theorem Ascending.find? {m : String} (h : f.Ascending) (hm : f.find? m = some e) : e.Ascending := by
  induction f using cons_induction with
  | empty => cases hm
  | cons n e' rest ih =>
    obtain ⟨-, he', hrest⟩ := ascending_cons.1 h
    rw [find?_cons] at hm
    split_ifs at hm
    · cases hm; exact he'
    · exact ih hrest hm

/-- Whether names ascend. -/
def decideAscending : ∀ f : Folder, Decidable f.Ascending
  | .empty => .isTrue trivial
  | .file n _ rest =>
    have := decideAscending rest
    inferInstanceAs (Decidable ((∀ m ∈ rest.names, n < m) ∧ rest.Ascending))
  | .folder n inside rest =>
    have := decideAscending inside
    have := decideAscending rest
    inferInstanceAs (Decidable ((∀ m ∈ rest.names, n < m) ∧ inside.Ascending ∧ rest.Ascending))

instance (f : Folder) : Decidable f.Ascending := decideAscending f

/-! ## Addresses -/

theorem lookup_cons (name : String) (rest : Address) (f : Folder) :
    f.lookup (name :: rest) = (f.find? name).bind (Entry.at? rest) := by
  rw [lookup]
  rcases f.find? name with _ | (_ | _) <;> rfl

theorem at?_nil (e : Entry) : e.at? [] = some e := by
  cases e <;> rfl

theorem lookup_singleton (name : String) (f : Folder) : f.lookup [name] = f.find? name := by
  rw [lookup_cons]
  rcases f.find? name with _ | e
  · rfl
  · exact at?_nil e

theorem lookup_cons_of_find? {name : String} {inside : Folder} (h : f.find? name = some (.folder inside))
    (rest : Address) : f.lookup (name :: rest) = inside.lookup rest := by
  rw [lookup_cons, h]; rfl

theorem lookup_cons_of_not_folder {name : String} {rest : Address} (hrest : rest ≠ [])
    (h : ∀ inside, f.find? name ≠ some (.folder inside)) : f.lookup (name :: rest) = none := by
  rw [lookup_cons]
  rcases hf : f.find? name with _ | (bytes | inside)
  · rfl
  · obtain ⟨n, ns, rfl⟩ := List.exists_cons_of_ne_nil hrest
    rfl
  · exact absurd hf (h inside)

/-- An address goes on below a folder only. -/
theorem find?_of_lookup_cons_cons {name next : String} {rest : Address} {e : Entry}
    (h : f.lookup (name :: next :: rest) = some e) :
    ∃ g, f.find? name = some (.folder g) ∧ g.lookup (next :: rest) = some e := by
  by_contra hnone
  have hfolder : ∀ inside, f.find? name ≠ some (.folder inside) := by
    intro inside hinside
    rw [lookup_cons_of_find? hinside] at h
    exact hnone ⟨inside, hinside, h⟩
  rw [lookup_cons_of_not_folder (by simp) hfolder] at h
  cases h

/-- The way to a folder leads through folders. -/
theorem find?_of_lookup_folder {name : String} {rest : Address} {inside : Folder}
    (h : f.lookup (name :: rest) = some (.folder inside)) :
    ∃ g, f.find? name = some (.folder g) ∧ g.lookup rest = some (.folder inside) := by
  rw [lookup_cons] at h
  obtain ⟨e, he, h⟩ := Option.bind_eq_some_iff.1 h
  cases e with
  | file bytes => cases rest <;> cases h
  | folder g => exact ⟨g, he, h⟩

theorem exists_find?_of_hasFolder {name : String} {rest : Address} (h : f.HasFolder (name :: rest)) :
    ∃ g, f.find? name = some (.folder g) ∧ g.HasFolder rest := by
  obtain ⟨inside, hi⟩ := h
  obtain ⟨g, hg, hi⟩ := find?_of_lookup_folder hi
  exact ⟨g, hg, inside, hi⟩

theorem hasFolder_cons {name : String} {rest : Address} {g : Folder}
    (hg : f.find? name = some (.folder g)) (h : g.HasFolder rest) : f.HasFolder (name :: rest) := by
  obtain ⟨inside, hi⟩ := h
  exact ⟨inside, by rw [lookup_cons_of_find? hg, hi]⟩

theorem HasFolder.of_append {a b : Address} (h : f.HasFolder (a ++ b)) : f.HasFolder a := by
  induction a generalizing f with
  | nil => exact hasFolder_nil f
  | cons n a ih =>
    rw [List.cons_append] at h
    obtain ⟨g, hg, h⟩ := exists_find?_of_hasFolder h
    exact hasFolder_cons hg (ih h)

theorem lookup_append {inside : Folder} {a : Address} (h : f.lookup a = some (.folder inside))
    (b : Address) : f.lookup (a ++ b) = inside.lookup b := by
  induction a generalizing f with
  | nil => cases h; rfl
  | cons n a ih =>
    obtain ⟨g, hg, h⟩ := find?_of_lookup_folder h
    rw [List.cons_append, lookup_cons_of_find? hg, ih h]

theorem Ascending.lookup {a : Address} {inside : Folder} (h : f.Ascending)
    (ha : f.lookup a = some (.folder inside)) : inside.Ascending := by
  induction a generalizing f with
  | nil => cases ha; exact h
  | cons name rest ih =>
    obtain ⟨g, hg, ha⟩ := find?_of_lookup_folder ha
    exact ih (h.find? hg) ha

theorem put_cons {name : String} {rest : Address} (h : rest ≠ []) :
    f.put e (name :: rest) =
      match f.find? name with
      | some (.folder inside) => f.insert name (.folder (inside.put e rest))
      | _ => f := by
  obtain ⟨n, ns, rfl⟩ := List.exists_cons_of_ne_nil h
  rfl

theorem put_cons_of_not_folder {name : String} {rest : Address} (h : rest ≠ [])
    (hf : ∀ g, f.find? name ≠ some (.folder g)) : f.put e (name :: rest) = f := by
  rw [put_cons h]
  split
  · rename_i g hg
    exact absurd hg (hf g)
  · rfl

/-! ## Putting an entry at an address -/

theorem lookup_put_of_ne {name m : String} (hm : m ≠ name) (rest b : Address) :
    (f.put e (name :: rest)).lookup (m :: b) = f.lookup (m :: b) := by
  by_cases hrest : rest = []
  · subst hrest
    rw [put, lookup_cons, lookup_cons, find?_insert, if_neg hm]
  · rw [put_cons hrest]
    split
    · rw [lookup_cons, lookup_cons, find?_insert, if_neg hm]
    · rfl

theorem lookup_put_cons {name : String} {rest : Address} {g : Folder} (hrest : rest ≠ [])
    (hg : f.find? name = some (.folder g)) (b : Address) :
    (f.put e (name :: rest)).lookup (name :: b) = (g.put e rest).lookup b := by
  rw [put_cons hrest, hg]
  exact lookup_cons_of_find? (by rw [find?_insert, if_pos rfl]) b

/-- What is put into a folder that exists is there. -/
theorem lookup_put_self {dir : Address} (h : f.HasFolder dir) (name : String) :
    (f.put e (dir ++ [name])).lookup (dir ++ [name]) = some e := by
  induction dir generalizing f with
  | nil => rw [List.nil_append, put, lookup_singleton, find?_insert, if_pos rfl]
  | cons n dir ih =>
    obtain ⟨g, hg, hdir⟩ := exists_find?_of_hasFolder h
    rw [List.cons_append, lookup_put_cons (by simp) hg, ih hdir]

/-- Nothing is put at an address into which no folder leads. -/
theorem lookup_put_of_not_hasFolder {dir : Address} (h : ¬ f.HasFolder dir) (name : String) :
    (f.put e (dir ++ [name])).lookup (dir ++ [name]) = f.lookup (dir ++ [name]) := by
  induction dir generalizing f with
  | nil => exact absurd (hasFolder_nil f) h
  | cons n dir ih =>
    rw [List.cons_append]
    by_cases hf : ∃ g, f.find? n = some (.folder g)
    · obtain ⟨g, hg⟩ := hf
      rw [lookup_put_cons (by simp) hg, ih fun hd => h (hasFolder_cons hg hd), lookup_cons_of_find? hg]
    · rw [put_cons_of_not_folder (by simp) (not_exists.1 hf)]

theorem HasFolder.put {a b : Address} (hfree : ¬ f.HasFolder a) (h : f.HasFolder b) :
    (f.put e a).HasFolder b := by
  induction a generalizing f b with
  | nil => exact h
  | cons name rest ih =>
    cases b with
    | nil => exact hasFolder_nil _
    | cons m b =>
      by_cases hm : m = name
      · subst hm
        obtain ⟨g, hg, hb⟩ := exists_find?_of_hasFolder h
        have hrest : rest ≠ [] := by
          rintro rfl
          exact hfree (hasFolder_cons hg (hasFolder_nil g))
        obtain ⟨inside, hi⟩ := ih (fun hr => hfree (hasFolder_cons hg hr)) hb
        exact ⟨inside, by rw [lookup_put_cons hrest hg, hi]⟩
      · obtain ⟨inside, hi⟩ := h
        exact ⟨inside, by rw [lookup_put_of_ne hm, hi]⟩

/-- Below a leaf there is nothing. -/
theorem at?_of_isLeaf (h : e.IsLeaf) {rest : Address} (hrest : rest ≠ []) : e.at? rest = none := by
  obtain ⟨n, ns, rfl⟩ := List.exists_cons_of_ne_nil hrest
  cases h <;> rfl

/-- Every file but the one in question stays as it is. -/
theorem fileAt?_put_of_ne {a b : Address} (he : e.IsLeaf) (hfree : ¬ f.HasFolder a) (hne : b ≠ a) :
    (f.put e a).fileAt? b = f.fileAt? b := by
  induction a generalizing f b with
  | nil => rfl
  | cons name rest ih =>
    cases b with
    | nil => rw [fileAt?_nil, fileAt?_nil]
    | cons m b =>
      unfold fileAt?
      by_cases hm : m = name
      · subst hm
        have hb : b ≠ rest := fun h => hne (h ▸ rfl)
        by_cases hf : ∃ g, f.find? m = some (.folder g)
        · obtain ⟨g, hg⟩ := hf
          have hrest : rest ≠ [] := by
            rintro rfl
            exact hfree (hasFolder_cons hg (hasFolder_nil g))
          rw [lookup_put_cons hrest hg, lookup_cons_of_find? hg]
          exact ih (fun hr => hfree (hasFolder_cons hg hr)) hb
        · rw [not_exists] at hf
          by_cases hrest : rest = []
          · -- the entry is put right here, and nothing is below a leaf
            subst hrest
            rw [lookup_cons_of_not_folder hb hf, put, lookup_cons, find?_insert, if_pos rfl,
              Option.bind_some, at?_of_isLeaf he hb]
          · rw [put_cons_of_not_folder hrest hf]
      · rw [lookup_put_of_ne hm]

theorem Ascending.put {a : Address} (he : e.Ascending) (h : f.Ascending) : (f.put e a).Ascending := by
  induction a generalizing f with
  | nil => exact h
  | cons name rest ih =>
    by_cases hrest : rest = []
    · subst hrest; exact h.insert he
    · rw [put_cons hrest]
      split
      · rename_i g hg
        exact Ascending.insert (e := .folder (g.put e rest)) (ih (h.find? hg)) h
      · exact h

/-! ## The walk -/

theorem mem_files_names {a : Address} {bytes : ByteArray} (h : (a, bytes) ∈ f.files) :
    ∃ name rest, a = name :: rest ∧ name ∈ f.names := by
  induction f generalizing a with
  | empty => cases h
  | file n b rest ih =>
    rcases List.mem_cons.1 h with h | h
    · cases h; exact ⟨n, [], rfl, List.mem_cons_self ..⟩
    · obtain ⟨m, r, rfl, hm⟩ := ih h
      exact ⟨m, r, rfl, List.mem_cons_of_mem _ hm⟩
  | folder n inside rest _ ih =>
    rcases List.mem_append.1 h with h | h
    · obtain ⟨⟨a', b'⟩, -, he⟩ := List.mem_map.1 h
      cases he; exact ⟨n, a', rfl, List.mem_cons_self ..⟩
    · obtain ⟨m, r, rfl, hm⟩ := ih h
      exact ⟨m, r, rfl, List.mem_cons_of_mem _ hm⟩

theorem fileAt?_cons_of_not_mem {n : String} (rest : Address) (h : n ∉ f.names) :
    f.fileAt? (n :: rest) = none := by
  have hnone : f.find? n = none := by rwa [← Option.not_isSome_iff_eq_none, find?_isSome]
  rw [fileAt?, lookup_cons, hnone]; rfl

/-- The walk lists the files of a tree with their addresses. -/
theorem mem_files {a : Address} {bytes : ByteArray} (hf : f.Ascending) :
    (a, bytes) ∈ f.files ↔ f.fileAt? a = some bytes := by
  induction f generalizing a with
  | empty => cases a <;> simp [files, fileAt?, lookup, find?]
  | file n b rest ih =>
    have hn : n ∉ rest.names := fun h => lt_irrefl n (hf.1 n h)
    rw [files, List.mem_cons, ih hf.2]
    cases a with
    | nil => simp [fileAt?_nil]
    | cons m as =>
      by_cases hm : m = n
      · subst hm
        rw [fileAt?_cons_of_not_mem as hn, fileAt?_eq_some, lookup_cons]
        cases as <;> simp [find?, Entry.at?, eq_comm]
      · simp [fileAt?, lookup_cons, find?, hm]
  | folder n inside rest ihi ih =>
    have hn : n ∉ rest.names := fun h => lt_irrefl n (hf.1 n h)
    rw [files, List.mem_append, ih hf.2.2, List.mem_map]
    cases a with
    | nil => simp [fileAt?_nil]
    | cons m as =>
      by_cases hm : m = n
      · -- below this name the walk goes on inside, since it does not come again
        subst hm
        have hinside : (folder m inside rest).fileAt? (m :: as) = inside.fileAt? as := by
          have hm : (folder m inside rest).find? m = some (.folder inside) := by simp [find?]
          rw [fileAt?, lookup_cons_of_find? hm]; rfl
        rw [fileAt?_cons_of_not_mem as hn, hinside, ← ihi hf.2.1]
        simp
      · have hrest : (folder n inside rest).fileAt? (m :: as) = rest.fileAt? (m :: as) := by
          simp [fileAt?, lookup_cons, find?, hm]
        rw [hrest]
        simp [Ne.symm hm]

/-- The walk goes through the addresses in ascending order. -/
theorem pairwise_files (hf : f.Ascending) : f.files.Pairwise fun x y => x.1 < y.1 := by
  have hhead : ∀ {n m : String} (as bs : Address), n < m → n :: as < m :: bs := fun _ _ h =>
    List.cons_lt_cons_iff.2 (.inl h)
  induction f with
  | empty => exact .nil
  | file n b rest ih =>
    refine List.pairwise_cons.2 ⟨?_, ih hf.2⟩
    intro y hy
    obtain ⟨m, r, he, hm⟩ := mem_files_names hy
    rw [he]
    exact hhead _ _ (hf.1 m hm)
  | folder n inside rest ihi ih =>
    refine List.pairwise_append.2 ⟨?_, ih hf.2.2, ?_⟩
    · rw [List.pairwise_map]
      exact (ihi hf.2.1).imp fun h => List.cons_lt_cons_iff.2 (.inr ⟨rfl, h⟩)
    · intro x hx y hy
      obtain ⟨x', -, rfl⟩ := List.mem_map.1 hx
      obtain ⟨m, r, he, hm⟩ := mem_files_names hy
      rw [he]
      exact hhead _ _ (hf.1 m hm)

/-- Two trees that agree on the files at some addresses have the same walk through these. -/
theorem files_filter_eq {g : Folder} (hf : f.Ascending) (hg : g.Ascending) {p : Address → Bool}
    (h : ∀ a, p a = true → f.fileAt? a = g.fileAt? a) :
    (f.files.filter fun x => p x.1) = g.files.filter fun x => p x.1 := by
  have : Std.Antisymm fun x y : Address × ByteArray => x.1 < y.1 := ⟨fun _ _ h h' => absurd h' h.asymm⟩
  have : Std.Irrefl fun x y : Address × ByteArray => x.1 < y.1 := ⟨fun _ => lt_irrefl _⟩
  -- two ascending lists with the same members are equal
  refine ((pairwise_files hf).filter _).eq_of_mem_iff ((pairwise_files hg).filter _) ?_
  intro x
  rw [List.mem_filter, List.mem_filter, mem_files hf, mem_files hg]
  exact and_congr_left fun hp => by rw [h x.1 hp]

end Folder

end TypedTables.Files
