/-
What the operations on a file tree leave alone. A path leads to one address only, `place?`, however
the tree looks; making folders and writing files take no folder away, and a write changes no file
with another name (`Touches`). So what was written is read back until its name is written again.
-/
import TypedTables.Files.System
import TypedTables.Proofs.Files.Folder

namespace TypedTables.Files

/-! ## Parts of paths -/

namespace Path

theorem splitSlashes_ne_nil : ∀ cs : List Char, splitSlashes cs ≠ []
  | [] => by simp [splitSlashes]
  | c :: cs => by
    rw [splitSlashes]
    split_ifs
    · simp
    · split <;> simp

theorem splitSlashes_append : ∀ as bs : List Char,
    splitSlashes (as ++ '/' :: bs) = splitSlashes as ++ splitSlashes bs
  | [], bs => by simp [splitSlashes]
  | c :: as, bs => by
    obtain ⟨part, parts, hparts⟩ := List.exists_cons_of_ne_nil (splitSlashes_ne_nil as)
    rw [List.cons_append, splitSlashes, splitSlashes, splitSlashes_append as bs, hparts]
    split_ifs <;> rfl

theorem splitSlashes_of_not_mem : ∀ {cs : List Char}, '/' ∉ cs → splitSlashes cs = [cs]
  | [], _ => rfl
  | c :: cs, h => by
    rw [List.mem_cons, not_or] at h
    rw [splitSlashes, if_neg (by simpa using Ne.symm h.1), splitSlashes_of_not_mem h.2]

/-- An ending without a slash is the ending of the last part. -/
theorem exists_splitSlashes_append {ending : List Char} (h : '/' ∉ ending) : ∀ cs : List Char,
    ∃ front last, splitSlashes (cs ++ ending) = front ++ [last ++ ending] ∧ '/' ∉ last
  | [] => ⟨[], [], splitSlashes_of_not_mem h, by simp⟩
  | c :: cs => by
    obtain ⟨front, last, hsplit, hlast⟩ := exists_splitSlashes_append h cs
    rw [List.cons_append, splitSlashes, hsplit]
    split_ifs with hc
    · exact ⟨[] :: front, last, rfl, hlast⟩
    · have hslash : '/' ≠ c := fun heq => hc (beq_iff_eq.2 heq.symm)
      cases front with
      | nil => exact ⟨[], c :: last, rfl, by simp [hslash, hlast]⟩
      | cons part front => exact ⟨(c :: part) :: front, last, rfl, hlast⟩

end Path

/-- A name of one file in a folder, as it may stand behind a slash. -/
structure IsFileName (name : String) : Prop where
  ne_empty : name ≠ ""
  noSlash : '/' ∉ name.toList
  ne_dot : name ≠ "."
  ne_dots : name ≠ ".."

/-- A name that a file or a folder may have, which the zero character is not in. -/
structure IsEntryName (name : String) : Prop extends IsFileName name where
  noZero : '\x00' ∉ name.toList

theorem IsFileName.relative {name : String} (h : IsFileName name) :
    (Path.mk name).isAbsolute = false := by
  rw [Path.isAbsolute, beq_eq_false_iff_ne]
  intro he
  exact h.noSlash (List.mem_of_mem_head? he)

namespace Path

/-- A relative path is written behind another one with a slash between them, if one is missing. -/
theorem text_join_of_relative {below : String} (h : (Path.mk below).isAbsolute = false) (p : Path) :
    ∃ slash, (slash = "" ∨ slash = "/") ∧ (p.join below).text = p.text ++ slash ++ below := by
  unfold join
  rw [if_neg (by simp [h])]
  split_ifs
  · exact ⟨"", .inl rfl, by simp⟩
  · exact ⟨"/", .inr rfl, rfl⟩

theorem text_join {name : String} (h : IsFileName name) (p : Path) :
    ∃ slash, (slash = "" ∨ slash = "/") ∧ (p.join name).text = p.text ++ slash ++ name :=
  text_join_of_relative h.relative p

/-- The parts of a path below another one come behind the parts of that. -/
theorem parts_join_of_relative {below : String} (h : (Path.mk below).isAbsolute = false) (p : Path) :
    (p.join below).parts = p.parts ++ (Path.mk below).parts := by
  rw [join, if_neg (by simp [h])]
  split_ifs with hjoin
  · -- the path is empty or has its slash already
    rcases Bool.or_eq_true .. |>.mp hjoin with he | hs
    · have hp : p.text.toList = [] := by simpa using he
      simp only [parts, String.toList_append, hp, List.nil_append]
      rfl
    · obtain ⟨above, hp⟩ : ∃ above, p.text.toList = above ++ ['/'] :=
        List.getLast?_eq_some_iff.1 (by simpa [endsInSlash] using hs)
      simp only [parts, String.toList_append, hp, List.append_assoc, List.singleton_append,
        splitSlashes_append, List.filter_append, List.map_append]
      simp [splitSlashes]
  · have hslash : ("/" : String).toList = ['/'] := rfl
    simp only [parts, String.toList_append, hslash, List.append_assoc, List.singleton_append,
      splitSlashes_append, List.filter_append, List.map_append]

theorem parts_name {name : String} (h : IsFileName name) : (Path.mk name).parts = [name] := by
  have hne : name.toList ≠ [] := by simpa using h.ne_empty
  simp [parts, splitSlashes_of_not_mem h.noSlash, hne]

theorem parts_join {name : String} (h : IsFileName name) (p : Path) :
    (p.join name).parts = p.parts ++ [name] := by
  rw [parts_join_of_relative h.relative, parts_name h]

/-- A path has a part if something else than slashes is in it. -/
theorem parts_ne_nil {p : Path} {c : Char} (h : c ∈ p.text.toList) (hc : c ≠ '/') : p.parts ≠ [] := by
  have hsplit : ∀ {cs : List Char}, c ∈ cs → ∃ part ∈ splitSlashes cs, part ≠ [] := by
    intro cs hmem
    induction cs with
    | nil => cases hmem
    | cons d rest ih =>
      rw [splitSlashes]
      by_cases hd : d = '/'
      · obtain ⟨part, hpart, hne⟩ := ih ((List.mem_cons.1 hmem).resolve_left fun h => hc (h.trans hd))
        rw [if_pos (by simpa using hd)]
        exact ⟨part, List.mem_cons_of_mem _ hpart, hne⟩
      · obtain ⟨part, parts, hparts⟩ := List.exists_cons_of_ne_nil (splitSlashes_ne_nil rest)
        rw [if_neg (by simpa using hd), hparts]
        exact ⟨d :: part, List.mem_cons_self .., by simp⟩
  obtain ⟨part, hpart, hne⟩ := hsplit h
  refine List.ne_nil_of_mem (a := String.ofList part) (List.mem_map.2 ⟨part, List.mem_filter.2 ⟨hpart, ?_⟩, rfl⟩)
  simpa using hne

end Path

theorem Path.not_namesFolder_join {name : String} (h : IsFileName name) (p : Path) :
    namesFolder (p.join name) = false := by
  have hdots : (p.join name).endsInDots = false := by
    simp [endsInDots, parts_join h, h.ne_dot, h.ne_dots]
  have hslash : (p.join name).endsInSlash = false := by
    obtain ⟨slash, -, htext⟩ := text_join h p
    rw [endsInSlash, htext, String.toList_append, beq_eq_false_iff_ne,
      List.getLast?_append_of_ne_nil _ (by simpa using h.ne_empty)]
    intro he
    exact h.noSlash (List.mem_of_getLast? he)
  rw [namesFolder, hslash, hdots]; rfl

/-! ## Where a path leads -/

/-- Where parts lead from an address on when every folder on the way is there. -/
def placeFrom (here : Address) : List String → Option Address
  | [] => some here
  | part :: rest =>
    if part = "." then placeFrom here rest
    else if part = ".." then if here.isEmpty then none else placeFrom here.dropLast rest
    else placeFrom (here ++ [part]) rest

/-- The one address that a path can lead to. -/
def place? (p : Path) : Option Address := placeFrom [] p.parts

variable {t t' : Folder} {here a : Address}

theorem placeFrom_of_follow : ∀ {parts : List String} {here : Address},
    follow t here parts = .ok a → placeFrom here parts = some a
  | [], here, h => by cases h; rfl
  | part :: rest, here, h => by
    rw [follow] at h
    rw [placeFrom]
    split_ifs at h ⊢ with h1 h2 h3 h4 h5
    · exact placeFrom_of_follow h
    · exact placeFrom_of_follow h
    · rw [List.isEmpty_iff.1 h5] at *
      cases h; rfl
    · split at h
      · cases h
      · cases h
      · exact placeFrom_of_follow h

/-- A path that is followed part by part. -/
structure Path.IsPlain (p : Path) : Prop where
  noZero : '\x00' ∉ p.text.toList
  ne_empty : p.text ≠ ""
  relative : p.isAbsolute = false
  size : p.text.utf8ByteSize < pathSizeLimit

theorem resolve_ok_iff {p : Path} : resolve t p = .ok a ↔ p.IsPlain ∧ follow t [] p.parts = .ok a := by
  unfold resolve
  split_ifs with hzero hstart hsize
  · exact iff_of_false nofun fun h => h.1.noZero (by simpa using hzero)
  · refine iff_of_false nofun fun h => ?_
    rcases Bool.or_eq_true .. |>.mp hstart with hempty | habs
    · exact h.1.ne_empty (by simpa using hempty)
    · rw [h.1.relative] at habs; cases habs
  · exact iff_of_false nofun fun h => absurd h.1.size (Nat.not_lt.2 hsize)
  · rw [Bool.or_eq_true, not_or] at hstart
    refine (and_iff_right ⟨?_, ?_, ?_, Nat.not_le.1 hsize⟩).symm
    · simpa using hzero
    · simpa using hstart.1
    · simpa using hstart.2

theorem follow_of_resolve {p : Path} (h : resolve t p = .ok a) : follow t [] p.parts = .ok a :=
  (resolve_ok_iff.1 h).2

theorem place?_of_resolve {p : Path} (h : resolve t p = .ok a) : place? p = some a :=
  placeFrom_of_follow (follow_of_resolve h)

theorem placeFrom_append {name : String} (hname : IsFileName name) :
    ∀ (parts : List String) (here : Address),
      placeFrom here (parts ++ [name]) = (placeFrom here parts).map (· ++ [name])
  | [], here => by simp [placeFrom, hname.ne_dot, hname.ne_dots]
  | part :: rest, here => by
    rw [List.cons_append, placeFrom, placeFrom]
    split_ifs
    · exact placeFrom_append hname rest here
    · rfl
    · exact placeFrom_append hname rest here.dropLast
    · exact placeFrom_append hname rest (here ++ [part])

theorem place?_join {name : String} (hname : IsFileName name) (p : Path) :
    place? (p.join name) = (place? p).map (· ++ [name]) := by
  rw [place?, Path.parts_join hname, placeFrom_append hname, place?]

/-- A path still leads where it led when no folder is gone. -/
theorem follow_mono (hf : ∀ b, t.HasFolder b → t'.HasFolder b) : ∀ {parts : List String}
    {here : Address}, follow t here parts = .ok a → follow t' here parts = .ok a
  | [], here, h => h
  | part :: rest, here, h => by
    rw [follow] at h ⊢
    split_ifs at h ⊢ with h1 h2 h3 h4 h5
    · exact follow_mono hf h
    · exact follow_mono hf h
    · exact h
    · split at h
      · cases h
      · cases h
      · rename_i inside hinside
        obtain ⟨inside', hinside'⟩ := hf _ ⟨inside, hinside⟩
        rw [hinside']
        exact follow_mono hf h

theorem resolve_mono (hf : ∀ b, t.HasFolder b → t'.HasFolder b) {p : Path}
    (h : resolve t p = .ok a) : resolve t' p = .ok a := by
  obtain ⟨hplain, hfollow⟩ := resolve_ok_iff.1 h
  exact resolve_ok_iff.2 ⟨hplain, follow_mono hf hfollow⟩

/-- Parts that end in a file name lead into the folder that the others lead to. -/
theorem follow_append_iff {name : String} (hname : IsFileName name) : ∀ {parts : List String}
    {here : Address}, t.HasFolder here → (follow t here (parts ++ [name]) = .ok a ↔
      ∃ dir, a = dir ++ [name] ∧ follow t here parts = .ok dir ∧ t.HasFolder dir ∧
        name.utf8ByteSize ≤ maxNameSize)
  | [], here, hhere => by
    simp only [List.nil_append, follow, if_neg hname.ne_dot, if_neg hname.ne_dots]
    split_ifs with hsize hnil
    · exact iff_of_false nofun fun ⟨_, _, _, _, hle⟩ => absurd hle (Nat.not_le.2 hsize)
    · constructor
      · rintro ⟨⟩
        exact ⟨here, rfl, rfl, hhere, Nat.not_lt.1 hsize⟩
      · rintro ⟨_, rfl, ⟨⟩, -, -⟩
        rfl
    · exact absurd rfl hnil
  | part :: rest, here, hhere => by
    rw [List.cons_append, follow, follow]
    split_ifs with hdot hdots hroot hsize happend hrest hrest
    · exact follow_append_iff hname hhere
    · exact iff_of_false nofun nofun
    · -- the folder above one that is there is there
      have hne : here ≠ [] := by simpa using hroot
      rw [← List.dropLast_append_getLast hne] at hhere
      exact follow_append_iff hname hhere.of_append
    · exact iff_of_false nofun nofun
    · simp at happend
    · simp at happend
    · -- without the name nothing is looked up behind the last part, so it need not be a folder
      rcases hl : t.lookup (here ++ [part]) with _ | (bytes | inside)
      · refine iff_of_false nofun ?_
        rintro ⟨_, -, ⟨⟩, ⟨inside, hi⟩, -⟩
        rw [hl] at hi; cases hi
      · refine iff_of_false nofun ?_
        rintro ⟨_, -, ⟨⟩, ⟨inside, hi⟩, -⟩
        rw [hl] at hi; cases hi
      · have ih : follow t (here ++ [part]) (rest ++ [name]) = .ok a ↔ _ :=
          follow_append_iff hname ⟨inside, hl⟩
        obtain rfl := List.isEmpty_iff.1 hrest
        exact ih
    · rcases hl : t.lookup (here ++ [part]) with _ | (bytes | inside)
      · exact iff_of_false nofun nofun
      · exact iff_of_false nofun nofun
      · exact follow_append_iff hname ⟨inside, hl⟩

theorem exists_dir_of_resolve {name : String} (hname : IsFileName name) {p : Path}
    (h : resolve t (p.join name) = .ok a) : ∃ dir, a = dir ++ [name] ∧ t.HasFolder dir := by
  have hfollow := follow_of_resolve h
  rw [Path.parts_join hname] at hfollow
  obtain ⟨dir, rfl, -, hdir, -⟩ := (follow_append_iff hname (Folder.hasFolder_nil t)).1 hfollow
  exact ⟨dir, rfl, hdir⟩

/-! ## Reading -/

theorem readBytes_ok_iff {p : Path} {bytes : ByteArray} : readBytes t p = .ok bytes ↔
    ∃ a, resolve t p = .ok a ∧ t.fileAt? a = some bytes ∧ namesFolder p = false := by
  unfold readBytes entryAt
  cases hr : resolve t p with
  | error e => simp
  | ok a =>
    simp only [Except.ok.injEq, exists_eq_left', Folder.fileAt?_eq_some]
    rcases hl : t.lookup a with _ | (b | inside)
    · simp
    · by_cases hn : namesFolder p = true <;> simp [hn]
    · simp

theorem folderAt?_eq_some {inside : Folder} {p : Path} :
    folderAt? t p = some inside ↔ ∃ a, resolve t p = .ok a ∧ t.lookup a = some (.folder inside) := by
  unfold folderAt? entryAt
  cases resolve t p with
  | error e => simp
  | ok a =>
    simp only [Except.ok.injEq, exists_eq_left']
    rcases t.lookup a with _ | (b | g)
    · simp
    · by_cases hn : namesFolder p = true <;> simp [hn]
    · simp

theorem readBytes_of_readText {p : Path} {text : String} (h : readText t p = .ok text) :
    ∃ bytes, readBytes t p = .ok bytes := by
  unfold readText at h
  split at h
  · cases h
  · rename_i bytes hb
    exact ⟨bytes, hb⟩

/-! ## Changes -/

/-- A change that takes no folder away and changes no file but those with some names. -/
structure Touches (names : String → Prop) (t t' : Folder) : Prop where
  folders : ∀ a, t.HasFolder a → t'.HasFolder a
  files : ∀ a name, ¬ names name → t'.fileAt? (a ++ [name]) = t.fileAt? (a ++ [name])
  ascending : t.Ascending → t'.Ascending

namespace Touches

variable {names names' : String → Prop} {t'' : Folder}

theorem refl (t : Folder) : Touches names t t := ⟨fun _ h => h, fun _ _ _ => rfl, id⟩

theorem trans (h : Touches names t t') (h' : Touches names t' t'') : Touches names t t'' :=
  ⟨fun a ha => h'.folders a (h.folders a ha),
    fun a n hn => (h'.files a n hn).trans (h.files a n hn), h'.ascending ∘ h.ascending⟩

theorem mono (h : Touches names t t') (hn : ∀ n, names n → names' n) : Touches names' t t' :=
  ⟨h.folders, fun a n hn' => h.files a n fun hname => hn' (hn n hname), h.ascending⟩

theorem readBytes {name : String} {p : Path} {bytes : ByteArray} (h : Touches names t t')
    (hname : IsFileName name) (hn : ¬ names name) (hr : readBytes t (p.join name) = .ok bytes) :
    Files.readBytes t' (p.join name) = .ok bytes := by
  obtain ⟨a, hresolve, hfile, hfolder⟩ := readBytes_ok_iff.1 hr
  obtain ⟨dir, rfl, -⟩ := exists_dir_of_resolve hname hresolve
  exact readBytes_ok_iff.2 ⟨_, resolve_mono h.folders hresolve, (h.files _ _ hn).trans hfile, hfolder⟩

/-- Where no file was at the place of a path, none of another name has come. -/
theorem readBytes_ne_ok {name : String} {p : Path} {bytes : ByteArray} (h : Touches names t t')
    (hname : IsFileName name) (hn : ¬ names name)
    (hnone : ∀ a, place? (p.join name) = some a → t.fileAt? a = none) :
    Files.readBytes t' (p.join name) ≠ .ok bytes := by
  intro hr
  obtain ⟨a, hresolve, hfile, -⟩ := readBytes_ok_iff.1 hr
  obtain ⟨dir, rfl, -⟩ := exists_dir_of_resolve hname hresolve
  rw [h.files _ _ hn, hnone _ (place?_of_resolve hresolve)] at hfile
  cases hfile

end Touches

/-- Putting a leaf where no folder is touches the last name of its address. -/
theorem touches_put {dir : Address} {name : String} {e : Entry} (he : e.IsLeaf)
    (hfree : ¬ t.HasFolder (dir ++ [name])) : Touches (· = name) t (t.put e (dir ++ [name])) where
  folders _ h := h.put hfree
  files a m hn := by
    refine Folder.fileAt?_put_of_ne he hfree ?_
    intro heq
    exact hn (List.singleton_inj.1 (List.append_inj_right' heq rfl))
  ascending h := h.put he.ascending

theorem change_cases (f : Folder → Except OsError Folder) (t : Folder) :
    (∃ e, change f t = (.error e, t)) ∨ ∃ t', f t = .ok t' ∧ change f t = (.ok (), t') := by
  unfold change
  cases hf : f t with
  | error e => exact .inl ⟨e, rfl⟩
  | ok t' => exact .inr ⟨t', rfl, rfl⟩

/-- A write puts a file into a folder that is there, over none. -/
theorem written_ok {name : String} (hname : IsFileName name) {p : Path} {bytes : ByteArray}
    (h : written t (p.join name) bytes = .ok t') : ∃ dir, resolve t (p.join name) = .ok (dir ++ [name]) ∧
      t.HasFolder dir ∧ ¬ t.HasFolder (dir ++ [name]) ∧ t' = t.put (.file bytes) (dir ++ [name]) := by
  unfold written at h
  split at h
  · cases h
  · rename_i a hr
    obtain ⟨dir, rfl, hdir⟩ := exists_dir_of_resolve hname hr
    split_ifs at h
    split at h
    · cases h
    · rename_i hfree
      cases h
      exact ⟨dir, hr, hdir, fun ⟨inside, hi⟩ => hfree inside hi, rfl⟩

theorem touches_writeFile {name : String} (hname : IsFileName name) (p : Path) (bytes : ByteArray)
    (t : Folder) : Touches (· = name) t (writeFile (p.join name) bytes t).2 := by
  rcases change_cases (fun root => written root (p.join name) bytes) t with ⟨e, h⟩ | ⟨t', hw, h⟩
  · rw [writeFile, h]; exact .refl t
  · obtain ⟨dir, -, -, hfree, rfl⟩ := written_ok hname hw
    rw [writeFile, h]; exact touches_put (.file bytes) hfree

theorem touches_of_writeFile {name : String} (hname : IsFileName name) {p : Path} {bytes : ByteArray}
    (h : writeFile (p.join name) bytes t = (.ok (), t')) : Touches (· = name) t t' := by
  have htouch := touches_writeFile hname p bytes t
  rwa [h] at htouch

/-- A write that fails changes nothing. -/
theorem writeFile_error {p : Path} {bytes : ByteArray} {e : OsError}
    (h : writeFile p bytes t = (.error e, t')) : t' = t := by
  rcases change_cases (fun root => written root p bytes) t with ⟨e', he⟩ | ⟨t'', -, hok⟩
  · rw [← writeFile, h] at he; cases he; rfl
  · rw [← writeFile, h] at hok; cases hok

/-- What is written is read back. -/
theorem readBytes_writeFile {name : String} (hname : IsFileName name) {p : Path} {bytes : ByteArray}
    (h : writeFile (p.join name) bytes t = (.ok (), t')) : readBytes t' (p.join name) = .ok bytes := by
  have htouch := touches_of_writeFile hname h
  rcases change_cases (fun root => written root (p.join name) bytes) t with ⟨e, he⟩ | ⟨t'', hw, hok⟩
  · rw [← writeFile, h] at he; cases he
  · obtain ⟨dir, hresolve, hdir, -, rfl⟩ := written_ok hname hw
    rw [← writeFile, h] at hok
    cases hok
    exact readBytes_ok_iff.2 ⟨_, resolve_mono htouch.folders hresolve,
      Folder.fileAt?_eq_some.2 (Folder.lookup_put_self hdir name), Path.not_namesFolder_join hname p⟩

/-- What a path reads is still there after a write to another place. -/
theorem readBytes_writeFile_of_ne {name : String} (hname : IsFileName name) {p q : Path}
    {bytes bytes' : ByteArray} (h : writeFile (p.join name) bytes t = (.ok (), t'))
    (hne : ∀ a, place? q = some a → place? (p.join name) ≠ some a)
    (hr : readBytes t q = .ok bytes') : readBytes t' q = .ok bytes' := by
  have htouch := touches_of_writeFile hname h
  rcases change_cases (fun root => written root (p.join name) bytes) t with ⟨e, he⟩ | ⟨t'', hw, hok⟩
  · rw [← writeFile, h] at he; cases he
  · obtain ⟨dir, hresolve, -, hfree, rfl⟩ := written_ok hname hw
    rw [← writeFile, h] at hok
    cases hok
    obtain ⟨a, hqresolve, hfile, hfolder⟩ := readBytes_ok_iff.1 hr
    have ha : a ≠ dir ++ [name] := by
      rintro rfl
      exact hne _ (place?_of_resolve hqresolve) (place?_of_resolve hresolve)
    refine readBytes_ok_iff.2 ⟨a, resolve_mono htouch.folders hqresolve, ?_, hfolder⟩
    rw [Folder.fileAt?_put_of_ne (.file bytes) hfree ha, hfile]

/-! ## Making folders -/

theorem lookup_eq_none_of_withFolder {p : Path} (h : withFolder t p = .ok t') :
    ∃ a, t.lookup a = none ∧ t' = t.put (.folder .empty) a := by
  unfold withFolder at h
  split at h
  · cases h
  · rename_i a _
    split at h
    · cases h
    · rename_i hnone
      cases h
      exact ⟨a, hnone, rfl⟩

/-- A new folder is put where nothing was, so no file is touched. -/
theorem touches_withFolder {p : Path} (h : withFolder t p = .ok t') : Touches (fun _ => False) t t' := by
  obtain ⟨a, hnone, rfl⟩ := lookup_eq_none_of_withFolder h
  have hfree : ¬ t.HasFolder a := by
    rintro ⟨inside, hi⟩
    rw [hnone] at hi; cases hi
  refine ⟨fun b hb => hb.put hfree, ?_, fun ht => ht.put (e := .folder .empty) trivial⟩
  intro b name _
  by_cases hb : b ++ [name] = a
  · subst hb
    unfold Folder.fileAt?
    by_cases hdir : t.HasFolder b
    · rw [Folder.lookup_put_self hdir, hnone]
    · rw [Folder.lookup_put_of_not_hasFolder hdir]
  · exact Folder.fileAt?_put_of_ne .folder hfree hb

theorem touches_makeFolder (p : Path) (t : Folder) :
    Touches (fun _ => False) t (makeFolder p t).2 := by
  unfold makeFolder
  split
  · rename_i t' h
    exact touches_withFolder h
  · split_ifs <;> exact .refl t

/-! ## Operations one after the other -/

section

variable {σ ε α β : Type} {f : ExceptT ε (StateM σ) α} {g : α → ExceptT ε (StateM σ) β} {s s' : σ}

theorem bind_of_ok {a : α} (h : f s = (.ok a, s')) :
    (f >>= g : ExceptT ε (StateM σ) β) s = g a s' := by
  simp only [bind, ExceptT.bind, ExceptT.mk, StateT.bind]
  rw [h]; rfl

theorem bind_of_error {e : ε} (h : f s = (.error e, s')) :
    (f >>= g : ExceptT ε (StateM σ) β) s = (.error e, s') := by
  simp only [bind, ExceptT.bind, ExceptT.mk, StateT.bind]
  rw [h]; rfl

theorem bind_ok {b : β} (h : (f >>= g : ExceptT ε (StateM σ) β) s = (.ok b, s')) :
    ∃ a s₁, f s = (.ok a, s₁) ∧ g a s₁ = (.ok b, s') := by
  rcases hf : f s with ⟨e | a, s₁⟩
  · rw [bind_of_error hf] at h; cases h
  · rw [bind_of_ok hf] at h
    exact ⟨a, s₁, rfl, h⟩

theorem bind_error {e : ε} (h : (f >>= g : ExceptT ε (StateM σ) β) s = (.error e, s')) :
    f s = (.error e, s') ∨ ∃ a s₁, f s = (.ok a, s₁) ∧ g a s₁ = (.error e, s') := by
  rcases hf : f s with ⟨e' | a, s₁⟩
  · rw [bind_of_error hf] at h
    cases h
    exact .inl rfl
  · rw [bind_of_ok hf] at h
    exact .inr ⟨a, s₁, rfl, h⟩

end

theorem Touches.bind {α β : Type} {names : String → Prop} {f : FileM α} {g : α → FileM β}
    (hf : Touches names t (f t).2) (hg : ∀ a t', Touches names t' (g a t').2) :
    Touches names t ((f >>= g : FileM β) t).2 := by
  rcases h : f t with ⟨e | a, t'⟩
  · rw [h] at hf
    rw [bind_of_error h]
    exact hf
  · rw [h] at hf
    rw [bind_of_ok h]
    exact hf.trans (hg a t')

theorem touches_makeFolderAfter {above : FileM Unit} (p : Path)
    (h : ∀ t, Touches (fun _ => False) t (above t).2) (t : Folder) :
    Touches (fun _ => False) t (makeFolderAfter above p t).2 := by
  unfold makeFolderAfter
  split
  · exact (h t).bind fun _ t' => touches_makeFolder p t'
  · exact touches_makeFolder p t

theorem touches_makeFirstFolder : ∀ (ps : List Path) (t : Folder),
    Touches (fun _ => False) t (makeFirstFolder ps t).2
  | [], t => .refl t
  | p :: above, t => touches_makeFolderAfter p (touches_makeFirstFolder above) t

theorem touches_makeFolders (p : Path) (t : Folder) :
    Touches (fun _ => False) t (makeFolders p t).2 := by
  unfold makeFolders
  split_ifs
  · exact .refl t
  · exact touches_makeFirstFolder _ t

end TypedTables.Files
