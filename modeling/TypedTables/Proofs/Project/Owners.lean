/-
Who owns a name. One list holds the type names and the module names that files own, and a file whose
claim is refused owns nothing; still a claim is granted by one rule, that no file before it names the
same module. For a module name is made from the type name, and no type name is a module name. So the
names granted in a pass can stand side by side in the registry module. Main statement:
`claimAll_byModule`.
-/
import TypedTables.Proofs.Naming.Spelling
import TypedTables.Proofs.Project.Claims
import TypedTables.Proofs.Schema.Build
import TypedTables.Proofs.Source.RegistryNames

namespace TypedTables.Schema

open TypedTables.Naming

namespace TableNames.OfStem

variable {stem stem' : String} {names names' : TableNames}

/-! ## Type names and module names -/

theorem exists_upper_typeName (h : names.OfStem stem) :
    ∃ c ∈ names.typeName.toList, c.isUpper = true := by
  obtain ⟨rfl, hidentifier, -⟩ := h
  obtain ⟨c, rest, hname, hupper⟩ := exists_upper_of_isIdentifier hidentifier
  exact ⟨c, hname ▸ List.mem_cons_self .., hupper⟩

theorem isUpper_of_mem_moduleName (h : names.OfStem stem) {c : Char} (hc : c ∈ names.moduleName.toList) :
    c.isUpper = false := by
  rw [h.moduleName] at hc
  exact isUpper_of_mem_fieldName hc

/-- No type name is a module name. -/
theorem typeName_ne_moduleName (h : names.OfStem stem) (h' : names'.OfStem stem') :
    names.typeName ≠ names'.moduleName := by
  intro he
  obtain ⟨c, hc, hupper⟩ := h.exists_upper_typeName
  rw [h'.isUpper_of_mem_moduleName (he ▸ hc)] at hupper
  cases hupper

theorem isName_typeName (h : names.OfStem stem) : IsName names.typeName := ⟨h.identifier, h.notKeyword⟩

theorem isName_moduleName (h : names.OfStem stem) : IsName names.moduleName := by
  rw [h.moduleName]
  exact isName_fieldName _

/-- A type name has letters and digits only. -/
theorem not_mem_typeName (h : names.OfStem stem) : '_' ∉ names.typeName.toList := by
  intro hmem
  rw [h.eq, TableNames.ofType, toList_camelCase] at hmem
  exact absurd ((camelChars_cases stem.toList).1 '_' hmem) (by decide)

theorem typeName_not_reservedModule (h : names.OfStem stem) : names.typeName ∉ reservedModules := by
  have hall : ∀ module ∈ reservedModules, (module.toList.all fun c => !c.isUpper) = true := by decide
  obtain ⟨c, hc, hupper⟩ := h.exists_upper_typeName
  intro hmem
  simpa [hupper] using List.all_eq_true.1 (hall _ hmem) c hc

theorem moduleName_not_reservedType (h : names.OfStem stem) : names.moduleName ∉ reservedTypes := by
  have hall : ∀ type ∈ reservedTypes, (type.toList.any Char.isUpper) = true := by decide
  intro hmem
  obtain ⟨c, hc, hupper⟩ := List.any_eq_true.1 (hall _ hmem)
  rw [h.isUpper_of_mem_moduleName hc] at hupper
  cases hupper

end TableNames.OfStem

end TypedTables.Schema

namespace TypedTables.Project

open TypedTables.Files TypedTables.Naming TypedTables.Schema TypedTables.Source

/-! ## The rule -/

/-- Whether the name of a file makes valid names with a module. -/
def namesModule (module : String) (f : TableFile) : Bool :=
  (TableNames.ofStem f.name).toOption.any fun names => names.moduleName == module

/-- What a file claims behind others: its names, unless one of these names the same module. Then the
first that does is the owner. -/
def claimByModule (earlier : List TableFile) (f : TableFile) : Except InputError TableNames :=
  match TableNames.ofStem f.name with
  | .error fault => .error (.schema (.tableName f.name fault))
  | .ok names =>
    match earlier.find? (namesModule names.moduleName) with
    | some first => .error (.duplicate names.typeName first.path f.path)
    | none => .ok names

/-- The owner of a type or of its module is the first file that names the module. -/
def OwnedByModule (owners : Owners) (earlier : List TableFile) : Prop :=
  ∀ stem names, TableNames.ofStem stem = .ok names →
    (owners.owner? names.typeName).or (owners.owner? names.moduleName) =
      (earlier.find? (namesModule names.moduleName)).map TableFile.path

theorem OwnedByModule.empty : OwnedByModule [] [] := fun _ _ _ => rfl

theorem OwnedByModule.claimNames {owners : Owners} {earlier : List TableFile}
    (h : OwnedByModule owners earlier) (f : TableFile) :
    Project.claimNames owners f = claimByModule earlier f := by
  unfold Project.claimNames claimByModule
  cases hstem : TableNames.ofStem f.name with
  | error fault => rfl
  | ok names =>
    simp only [h _ names hstem]
    cases earlier.find? (namesModule names.moduleName) <;> rfl

theorem owner?_add (owners : Owners) (f : TableFile) (names : TableNames) (name : String) :
    (owners.add f (.ok names)).owner? name =
      if names.typeName = name ∨ names.moduleName = name then some f.path else owners.owner? name := by
  unfold Owners.add Owners.owner?
  by_cases htype : names.typeName = name
  · simp [htype]
  · by_cases hmodule : names.moduleName = name
    · simp [htype, hmodule]
    · simp [htype, hmodule]

theorem namesModule_of_ofStem {f : TableFile} {names : TableNames}
    (h : TableNames.ofStem f.name = .ok names) (module : String) :
    namesModule module f = (names.moduleName == module) := by
  rw [namesModule, h]
  rfl

theorem claimByModule_ok {earlier : List TableFile} {f : TableFile} {names : TableNames}
    (h : claimByModule earlier f = .ok names) :
    TableNames.ofStem f.name = .ok names ∧ earlier.find? (namesModule names.moduleName) = none := by
  unfold claimByModule at h
  split at h
  · cases h
  · rename_i own hstem
    split at h
    · cases h
    · rename_i hnone
      cases h
      exact ⟨hstem, hnone⟩

/-- A file whose claim is refused is not the first that names its module. -/
theorem exists_of_claimByModule_error {earlier : List TableFile} {f : TableFile} {e : InputError}
    (h : claimByModule earlier f = .error e) {module : String} (hf : namesModule module f = true) :
    ∃ first, earlier.find? (namesModule module) = some first := by
  unfold claimByModule at h
  split at h
  · rename_i fault hstem
    rw [namesModule, hstem] at hf
    cases hf
  · rename_i names hstem
    rw [namesModule_of_ofStem hstem, beq_iff_eq] at hf
    subst hf
    split at h
    · rename_i first hfirst
      exact ⟨first, hfirst⟩
    · cases h

/-- The rule outlives the claim of a file. -/
theorem OwnedByModule.add {owners : Owners} {earlier : List TableFile}
    (h : OwnedByModule owners earlier) (f : TableFile) :
    OwnedByModule (owners.add f (claimByModule earlier f)) (earlier ++ [f]) := by
  intro stem names hnames
  have hold := h stem names hnames
  rw [List.find?_append]
  cases hclaim : claimByModule earlier f with
  | error e =>
    -- the list stays, and the file is not the first of its module
    cases hf : namesModule names.moduleName f with
    | false => simpa [Owners.add, hf] using hold
    | true =>
      obtain ⟨first, hfirst⟩ := exists_of_claimByModule_error hclaim hf
      simpa [Owners.add, hfirst] using hold
  | ok own =>
    obtain ⟨hstem, hnone⟩ := claimByModule_ok hclaim
    have hown := TableNames.ofStem_cases hstem
    have hnamed := TableNames.ofStem_cases hnames
    have hf := namesModule_of_ofStem hstem names.moduleName
    have hcross := hnamed.typeName_ne_moduleName hown
    have hcross' := hown.typeName_ne_moduleName hnamed
    rw [owner?_add, owner?_add]
    by_cases hmodule : own.moduleName = names.moduleName
    · -- nobody has named this module before
      rw [hmodule] at hnone
      rw [hnone] at hold ⊢
      obtain ⟨htypeNone, -⟩ := Option.or_eq_none_iff.1 hold
      have howner : (if own.typeName = names.moduleName ∨ own.moduleName = names.moduleName then
          some f.path else owners.owner? names.moduleName) = some f.path := if_pos (.inr hmodule)
      rw [howner, htypeNone]
      split_ifs <;> simp [hf, hmodule]
    · -- tables of two modules have two types, so the list says of these names what it said before
      have htype : own.typeName ≠ names.typeName := by
        intro he
        exact hmodule (by rw [hown.moduleName, hnamed.moduleName, he])
      rw [if_neg (by simp [htype, hcross.symm]), if_neg (by simp [hcross', hmodule]), hold]
      simp [hf, hmodule]

theorem claimAll_getElem? : ∀ (files : List TableFile) {owners : Owners} {earlier : List TableFile},
    OwnedByModule owners earlier → ∀ i : Nat,
      (claimAll owners files)[i]? = files[i]?.map fun f => (f, claimByModule (earlier ++ files.take i) f)
  | [], _, _, _, i => by simp [claimAll]
  | f :: rest, owners, earlier, h, 0 => by simp [claimAll, h.claimNames f]
  | f :: rest, owners, earlier, h, i + 1 => by
    have ih := claimAll_getElem? rest (h.add f) i
    rw [claimAll, h.claimNames f]
    simpa using ih

/-! ## The names granted -/

/-- The names of a table in the registry module. -/
def entryOf (names : TableNames) : TableEntry := ⟨names.typeName, names.moduleName⟩

/-- The names of the claims that are granted, in order. -/
def grantedNames (files : List TableFile) : List TableNames :=
  (claimAll [] files).filterMap fun c => c.2.toOption

def grantedEntries (files : List TableFile) : List TableEntry := (grantedNames files).map entryOf

variable {files : List TableFile}

theorem exists_ofStem {names : TableNames} (h : names ∈ grantedNames files) :
    ∃ stem, names.OfStem stem := by
  obtain ⟨c, hc, hnames⟩ := List.mem_filterMap.1 h
  exact ⟨c.1.name, TableNames.ofStem_cases (claimAll_ok hc (ok_of_toOption hnames)).1⟩

theorem pairwise_grantedNames (files : List TableFile) :
    (grantedNames files).Pairwise fun names names' =>
      names.typeName ≠ names'.typeName ∧ names.moduleName ≠ names'.moduleName := by
  refine List.pairwise_filterMap.2 ((claimAll_apart [] files).imp ?_)
  intro c d hapart names hc names' hd
  exact hapart names names' (ok_of_toOption hc) (ok_of_toOption hd)

theorem tableNames_granted (files : List TableFile) : tableNames (grantedEntries files) =
    (grantedNames files).map TableNames.moduleName ++ (grantedNames files).map TableNames.typeName := by
  simp [tableNames, grantedEntries, Function.comp_def, entryOf]

/-- What every name granted is, of a type or of a module. -/
theorem mem_tableNames_granted {name : String} (h : name ∈ tableNames (grantedEntries files)) :
    IsName name ∧ name ∉ reservedTypes ∧ name ∉ reservedModules ∧ name ≠ "TABLE_NAMES" := by
  rw [tableNames_granted] at h
  rcases List.mem_append.1 h with h | h
  · obtain ⟨names, hnames, rfl⟩ := List.mem_map.1 h
    obtain ⟨stem, hstem⟩ := exists_ofStem hnames
    refine ⟨hstem.isName_moduleName, hstem.moduleName_not_reservedType, hstem.notReservedModule, ?_⟩
    intro he
    have hupper := hstem.isUpper_of_mem_moduleName (c := 'T') (he ▸ by decide)
    cases hupper
  · obtain ⟨names, hnames, rfl⟩ := List.mem_map.1 h
    obtain ⟨stem, hstem⟩ := exists_ofStem hnames
    refine ⟨hstem.isName_typeName, hstem.notReservedType, hstem.typeName_not_reservedModule, ?_⟩
    intro he
    exact hstem.not_mem_typeName (he ▸ by decide)

theorem nodup_tableNames_granted (files : List TableFile) :
    (tableNames (grantedEntries files)).Nodup := by
  have hpairwise := pairwise_grantedNames files
  rw [tableNames_granted]
  refine List.nodup_append.2 ⟨?_, ?_, ?_⟩
  · exact List.pairwise_map.2 (hpairwise.imp fun h => h.2)
  · exact List.pairwise_map.2 (hpairwise.imp fun h => h.1)
  · rintro _ hmodule _ htype he
    obtain ⟨names, hnames, rfl⟩ := List.mem_map.1 hmodule
    obtain ⟨names', hnames', rfl⟩ := List.mem_map.1 htype
    obtain ⟨stem, hstem⟩ := exists_ofStem hnames
    obtain ⟨stem', hstem'⟩ := exists_ofStem hnames'
    exact hstem'.typeName_ne_moduleName hstem he.symm

/-- A claim is granted by its place among the files: it is that of the names of its stem, unless a file
before names the same module, and then the first that does is reported as the owner. No two names that
are granted are equal, of types or of modules, and none is a keyword or reserved; so the registry
module of any of the tables, in any order, declares no name twice. -/
theorem claimAll_byModule (files : List TableFile) :
    (∀ i : Nat, (claimAll [] files)[i]? = files[i]?.map fun f => (f, claimByModule (files.take i) f)) ∧
    (tableNames (grantedEntries files)).Nodup ∧
    (∀ name ∈ tableNames (grantedEntries files),
      isKeyword name = false ∧ name ∉ reservedTypes ∧ name ∉ reservedModules) ∧
    ∀ entries : List TableEntry, entries.Nodup → entries ⊆ grantedEntries files →
      declarations (registryModule entries) = registryDeclarations entries ∧
      (declarations (registryModule entries)).Nodup := by
  have hdistinct := nodup_tableNames_granted files
  refine ⟨?_, hdistinct, ?_, ?_⟩
  · intro i
    simpa using claimAll_getElem? files OwnedByModule.empty i
  · intro name hname
    obtain ⟨hname, htype, hmodule, -⟩ := mem_tableNames_granted hname
    exact ⟨hname.notKeyword, htype, hmodule⟩
  · intro entries hnodup hsubset
    have hsome : tableNames entries ⊆ tableNames (grantedEntries files) := by
      intro name hname
      rcases List.mem_append.1 hname with hname | hname
      · exact List.mem_append_left _ (List.map_subset _ hsubset hname)
      · exact List.mem_append_right _ (List.map_subset _ hsubset hname)
    -- the names of some of the tables are among those granted
    have hnamed : ∀ e ∈ entries, e.IsNamed := by
      intro e he
      have htype := hsome (List.mem_append_right _ (List.mem_map_of_mem he))
      have hmodule := hsome (List.mem_append_left _ (List.mem_map_of_mem he))
      exact ⟨(mem_tableNames_granted htype).1.identifier, (mem_tableNames_granted hmodule).1.identifier⟩
    have hread := declarations_registryModule hnamed
    refine ⟨hread, ?_⟩
    rw [hread]
    exact nodup_registryDeclarations (nodup_tableNames_of_subset hdistinct hnodup hsubset)
      fun name hname => (mem_tableNames_granted (hsome hname)).2

/-- Files of two tables, one of no valid name, and one whose type differs from that of the first but not
the module. -/
def spelledFiles : List TableFile :=
  ["a_b", "std", "Ab", "items"].map fun stem => ⟨stem, ⟨stem ++ ".csv"⟩, [stem ++ ".csv"], .empty⟩

theorem claimAll_byModule_spelled :
    (claimAll [] spelledFiles)[2]?.map Prod.snd =
      some (.error (.duplicate "Ab" ⟨"a_b.csv"⟩ ⟨"Ab.csv"⟩)) ∧
    grantedEntries spelledFiles = [⟨"AB", "ab"⟩, ⟨"Items", "items"⟩] ∧
    (declarations (registryModule [⟨"Items", "items"⟩, ⟨"AB", "ab"⟩])).Nodup := by
  obtain ⟨hclaims, -, -, hregistry⟩ := claimAll_byModule spelledFiles
  have hgranted : grantedEntries spelledFiles = [⟨"AB", "ab"⟩, ⟨"Items", "items"⟩] := by decide +kernel
  refine ⟨?_, hgranted, ?_⟩
  · rw [hclaims 2]
    rfl
  · refine (hregistry _ (by decide) ?_).2
    rw [hgranted]
    decide

end TypedTables.Project
