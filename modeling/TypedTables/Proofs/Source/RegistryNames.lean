/-
The names in the registry module. A reading of a module's text finds what its lines declare: the names
that items bring into the module, the crates that imports start from among them, and the methods. The
registry module declares its imports, a module and a type for each table and two items of its own,
then two methods of its own and one for each table. Main statement: `declarations_registryModule`.

The type parameter of `Tables` has a scope of its own and is no item.
-/
import TypedTables.Proofs.Naming.Identifier
import TypedTables.Proofs.Text.Quoted
import TypedTables.Source.RegistryModule

namespace TypedTables.Source

open TypedTables.Naming TypedTables.Text

/-! ## Reading declarations -/

/-- A name that is declared: in the module, or as a method. -/
inductive Declaration where
  | item (name : String)
  | method (name : String)
  deriving DecidableEq, Repr

/-- The identifiers of a line, in order. -/
def identifiers (cs : List Char) : List String :=
  ((cs.splitOnP fun c => !isNextChar c).filter fun word => !word.isEmpty).map String.ofList

/-- What stands behind the last colon. -/
def behindColons (cs : List Char) : List Char := (cs.reverse.takeWhile fun c => c != ':').reverse

/-- What a line declares. An import declares the names behind its path, and takes up the name of the
crate that the path starts from. -/
def declarationsOn (text : String) : List Declaration :=
  match identifiers text.toList with
  | "use" :: crate :: _ => .item crate :: (identifiers (behindColons text.toList)).map .item
  | "pub" :: "use" :: _ => (identifiers (behindColons text.toList)).map .item
  | "pub" :: "mod" :: name :: _ => [.item name]
  | "pub" :: "const" :: name :: _ => [.item name]
  | "pub" :: "struct" :: name :: _ => [.item name]
  | "pub" :: "fn" :: name :: _ => [.method name]
  | _ => []

/-- The lines of a text. -/
def linesOf (text : String) : List String := (text.toList.splitOn '\n').map String.ofList

/-- What the lines of a module declare, in order. -/
def declarations (text : String) : List Declaration := (linesOf text).flatMap declarationsOn

/-! ## Lines -/

/-- A text with no line feed in it. -/
def IsLine (text : String) : Prop := '\n' ∉ text.toList

instance (text : String) : Decidable (IsLine text) := inferInstanceAs (Decidable (_ ∉ _))

theorem isLine_append {text behind : String} :
    IsLine (text ++ behind) ↔ IsLine text ∧ IsLine behind := by
  simp only [IsLine, String.toList_append, List.mem_append, not_or]

theorem linesOf_append {text : String} (h : IsLine text) (rest : String) :
    linesOf (text ++ "\n" ++ rest) = text :: linesOf rest := by
  have htext : (text ++ "\n" ++ rest).toList = text.toList ++ '\n' :: rest.toList := by simp
  rw [linesOf, htext, List.splitOn_append_cons_self_of_not_mem h, List.map_cons, String.ofList_toList,
    linesOf]

/-- The lines of a text put together from lines; there is an empty one behind the last line feed. -/
theorem linesOf_unlines : ∀ {texts : List String}, (∀ text ∈ texts, IsLine text) →
    linesOf (unlines texts) = texts ++ [""]
  | [], _ => rfl
  | text :: texts, h => by
    obtain ⟨htext, hrest⟩ := List.forall_mem_cons.1 h
    have hcons : unlines (text :: texts) = text ++ "\n" ++ unlines texts := by
      rw [← String.toList_inj]
      simp [unlines]
    rw [hcons, linesOf_append htext, linesOf_unlines hrest, List.cons_append]

/-! ## Quoted texts -/

/-- Whatever text is quoted stands on one line. -/
theorem isLine_quoted (text : String) : IsLine (quoted text) := by
  intro h
  rw [toList_quoted] at h
  exact absurd (Quoted.isPlain_of_mem_literalChars h) (by decide)

theorem isLine_quotedList (texts : List String) : IsLine (quotedList texts) := by
  rw [IsLine, quotedList, String.toList_intercalate]
  intro h
  rcases mem_intercalate h with h | ⟨part, hpart, h⟩
  · exact absurd h (by decide)
  · obtain ⟨literal, hliteral, rfl⟩ := List.mem_map.1 hpart
    obtain ⟨text, -, rfl⟩ := List.mem_map.1 hliteral
    exact isLine_quoted text h

/-! ## Identifiers of a line -/

/-- A name is read up to the next character of no name. -/
theorem identifiers_append {name : String} (hname : isIdentifier name = true) {c : Char}
    (h : isNextChar c = false) (rest : List Char) :
    identifiers (name.toList ++ c :: rest) = name :: identifiers rest := by
  have hne : name.toList ≠ [] := by simpa using ne_empty_of_isIdentifier hname
  have hchars : ∀ d ∈ name.toList, (!isNextChar d) = false := by
    intro d hd
    simp [isNextChar_of_isIdentifier hname d hd]
  rw [identifiers, List.splitOnP_append_cons_of_forall_mem hchars c (by simp [h]) rest]
  simp [identifiers, hne]

theorem identifiers_cons {c : Char} (h : isNextChar c = false) (rest : List Char) :
    identifiers (c :: rest) = identifiers rest := by
  rw [identifiers, List.splitOnP_cons_eq_if_modifyHead, if_pos (by simp [h])]
  simp [identifiers]

theorem identifiers_line (level : Nat) (text : String) :
    identifiers (line level text).toList = identifiers text.toList := by
  rw [line, String.toList_append, String.toList_ofList]
  generalize 4 * level = n
  induction n with
  | zero => rfl
  | succ n ih => rw [List.replicate_succ, List.cons_append, identifiers_cons (by decide), ih]

theorem behindColons_append (front : List Char) {behind : List Char} (h : ':' ∉ behind) :
    behindColons (front ++ ':' :: behind) = behind := by
  have hnone : ∀ c ∈ behind.reverse, (c != ':') = true := by
    intro c hc
    have hne : c ≠ ':' := by
      rintro rfl
      exact h (List.mem_reverse.1 hc)
    simpa using hne
  rw [behindColons, List.reverse_append, List.reverse_cons, List.append_assoc, List.singleton_append,
    List.takeWhile_append_of_pos hnone, List.takeWhile_cons_of_neg (by decide), List.append_nil,
    List.reverse_reverse]

/-! ## Lines for tables -/

/-- The names of a table can stand in code. -/
structure TableEntry.IsNamed (e : TableEntry) : Prop where
  typeName : isIdentifier e.typeName = true
  moduleName : isIdentifier e.moduleName = true

namespace TableEntry.IsNamed

variable {e : TableEntry}

theorem declarationsOn_module (h : e.IsNamed) :
    declarationsOn ("pub mod " ++ e.moduleName ++ ";") = [.item e.moduleName] := by
  have hline : ("pub mod " ++ e.moduleName ++ ";").toList =
      "pub".toList ++ ' ' :: ("mod".toList ++ ' ' :: (e.moduleName.toList ++ [';'])) := by simp
  rw [declarationsOn, hline, identifiers_append (by decide) (by decide),
    identifiers_append (by decide) (by decide), identifiers_append h.moduleName (by decide)]
  rfl

theorem declarationsOn_reexport (h : e.IsNamed) :
    declarationsOn ("pub use " ++ e.moduleName ++ "::" ++ e.typeName ++ ";") = [.item e.typeName] := by
  have hline : ("pub use " ++ e.moduleName ++ "::" ++ e.typeName ++ ";").toList =
      "pub".toList ++ ' ' :: ("use".toList ++ ' ' ::
        ((e.moduleName.toList ++ [':']) ++ ':' :: (e.typeName.toList ++ [';']))) := by simp
  have hcolon : ':' ∉ e.typeName.toList ++ [';'] := by
    simp [not_mem_of_isIdentifier h.typeName (c := ':') (by decide)]
  have hbehind : behindColons ("pub use " ++ e.moduleName ++ "::" ++ e.typeName ++ ";").toList =
      e.typeName.toList ++ [';'] := by
    rw [hline, ← List.cons_append, ← List.append_assoc, ← List.cons_append, ← List.append_assoc]
    exact behindColons_append _ hcolon
  rw [declarationsOn, hbehind, hline, identifiers_append (by decide) (by decide),
    identifiers_append (by decide) (by decide)]
  show (identifiers (e.typeName.toList ++ [';'])).map Declaration.item = _
  rw [identifiers_append h.typeName (by decide)]
  rfl

theorem declarations_accessor (h : e.IsNamed) :
    (accessorLines e).flatMap declarationsOn = [.method e.moduleName] := by
  -- only the first line of an accessor declares a name
  have hhead : declarationsOn (line 1 ("pub fn " ++ e.moduleName ++ "(&self) -> Result<Arc<" ++ e.typeName ++
      ">, RegistryLoadError> \x7b")) = [.method e.moduleName] := by
    have hline : ("pub fn " ++ e.moduleName ++ "(&self) -> Result<Arc<" ++ e.typeName ++
        ">, RegistryLoadError> \x7b").toList = "pub".toList ++ ' ' :: ("fn".toList ++ ' ' ::
          (e.moduleName.toList ++ '(' :: ("&self) -> Result<Arc<" ++ e.typeName ++
            ">, RegistryLoadError> \x7b").toList)) := by simp
    rw [declarationsOn, identifiers_line, hline, identifiers_append (by decide) (by decide),
      identifiers_append (by decide) (by decide), identifiers_append h.moduleName (by decide)]
    rfl
  have hbody : declarationsOn (line 2 ("self.registry.table::<" ++ e.typeName ++ ">()")) = [] := by
    have hline : ("self.registry.table::<" ++ e.typeName ++ ">()").toList =
        "self".toList ++ '.' :: ("registry.table::<" ++ e.typeName ++ ">()").toList := by simp
    rw [declarationsOn, identifiers_line, hline, identifiers_append (by decide) (by decide)]
    rfl
  have hclose : declarationsOn (line 1 "\x7d") = [] := by decide +kernel
  have hblank : declarationsOn blank = [] := by decide +kernel
  simp [accessorLines, hhead, hbody, hclose, hblank]

theorem isLine_moduleName (h : e.IsNamed) : IsLine e.moduleName :=
  not_mem_of_isIdentifier h.moduleName (by decide)

theorem isLine_typeName (h : e.IsNamed) : IsLine e.typeName :=
  not_mem_of_isIdentifier h.typeName (by decide)

theorem isLine_accessor (h : e.IsNamed) : ∀ text ∈ accessorLines e, IsLine text := by
  intro text htext
  simp only [accessorLines, List.mem_cons, List.not_mem_nil, or_false] at htext
  rcases htext with rfl | rfl | rfl | rfl
  · decide
  · simp only [line, isLine_append, h.isLine_moduleName, h.isLine_typeName]
    decide +kernel
  · simp only [line, isLine_append, h.isLine_typeName]
    decide +kernel
  · decide

end TableEntry.IsNamed

/-! ## The registry module -/

/-- The names that the imports of the registry module take up. -/
def importedNames (entries : List TableEntry) : List String :=
  if entries.isEmpty then ["tablemaker_runtime", "AssetStore", "TableRegistry"]
  else ["std", "Arc", "tablemaker_runtime", "AssetStore", "RegistryLoadError", "TableRegistry"]

/-- The modules and the types of tables. -/
def tableNames (entries : List TableEntry) : List String :=
  entries.map TableEntry.moduleName ++ entries.map TableEntry.typeName

/-- The names that the items of the registry module bring into it. -/
def itemNames (entries : List TableEntry) : List String :=
  importedNames entries ++ tableNames entries ++ ["TABLE_NAMES", "Tables"]

/-- The methods of the registry module. -/
def methodNames (entries : List TableEntry) : List String :=
  "new" :: "registry" :: entries.map TableEntry.moduleName

/-- The declarations of the registry module of some tables. -/
def registryDeclarations (entries : List TableEntry) : List Declaration :=
  (itemNames entries).map Declaration.item ++ (methodNames entries).map Declaration.method

variable {entries : List TableEntry}

theorem declarations_imports (entries : List TableEntry) :
    (importLines entries).flatMap declarationsOn = (importedNames entries).map .item := by
  unfold importLines importedNames
  split_ifs <;> decide +kernel

/-- Lines of which each declares one name of its table. -/
theorem declarations_each {lines : TableEntry → List String} {declared : TableEntry → Declaration}
    (h : ∀ e ∈ entries, (lines e).flatMap declarationsOn = [declared e]) :
    (entries.flatMap lines).flatMap declarationsOn = entries.map declared := by
  rw [List.flatMap_assoc, List.map_eq_flatMap]
  exact List.flatMap_congr h

theorem declarations_modules (h : ∀ e ∈ entries, e.IsNamed) :
    (moduleLines entries).flatMap declarationsOn = (tableNames entries).map Declaration.item := by
  have hblank : declarationsOn blank = [] := by decide +kernel
  have hmodules : (entries.map fun e => "pub mod " ++ e.moduleName ++ ";").flatMap declarationsOn =
      entries.map fun e => Declaration.item e.moduleName := by
    rw [List.map_eq_flatMap]
    exact declarations_each fun e he => by rw [List.flatMap_singleton, (h e he).declarationsOn_module]
  have hreexports : (entries.map fun e => "pub use " ++ e.moduleName ++ "::" ++ e.typeName ++ ";").flatMap
      declarationsOn = entries.map fun e => Declaration.item e.typeName := by
    rw [List.map_eq_flatMap]
    exact declarations_each fun e he => by rw [List.flatMap_singleton, (h e he).declarationsOn_reexport]
  unfold moduleLines
  split_ifs with hempty
  · rw [List.isEmpty_iff.1 hempty]
    rfl
  · rw [List.flatMap_append, List.flatMap_append, List.flatMap_append, hmodules, hreexports,
      List.flatMap_singleton, hblank, List.append_nil, List.append_nil, tableNames, List.map_append,
      List.map_map, List.map_map, Function.comp_def, Function.comp_def]

theorem declarations_names (entries : List TableEntry) :
    (nameLines entries).flatMap declarationsOn = [.item "TABLE_NAMES"] := by
  have hcomment : declarationsOn "/// Every compiled table, in compile order." = [] := by decide +kernel
  have hblank : declarationsOn blank = [] := by decide +kernel
  have hconst (list : String) :
      declarationsOn ("pub const TABLE_NAMES: &[&str] = &[" ++ list ++ "];") = [.item "TABLE_NAMES"] := by
    have hline : ("pub const TABLE_NAMES: &[&str] = &[" ++ list ++ "];").toList =
        "pub".toList ++ ' ' :: ("const".toList ++ ' ' :: ("TABLE_NAMES".toList ++ ':' ::
          (" &[&str] = &[" ++ list ++ "];").toList)) := by simp
    rw [declarationsOn, hline, identifiers_append (by decide) (by decide),
      identifiers_append (by decide) (by decide), identifiers_append (by decide) (by decide)]
    rfl
  simp [nameLines, hcomment, hconst, hblank]

theorem declarations_registryType : registryTypeLines.flatMap declarationsOn =
    [Declaration.item "Tables", Declaration.method "new", Declaration.method "registry"] := by
  decide +kernel

theorem isLine_registryLines (h : ∀ e ∈ entries, e.IsNamed) :
    ∀ text ∈ registryLines entries, IsLine text := by
  intro text htext
  simp only [registryLines, List.mem_append, List.mem_flatMap, List.mem_singleton] at htext
  rcases htext with ((((htext | htext) | htext) | htext) | ⟨e, he, htext⟩) | rfl
  · unfold importLines at htext
    split_ifs at htext <;> revert text <;> decide +kernel
  · unfold moduleLines at htext
    split_ifs at htext
    · cases htext
    · simp only [List.mem_append, List.mem_map, List.mem_singleton] at htext
      rcases htext with ((⟨e, he, rfl⟩ | rfl) | ⟨e, he, rfl⟩) | rfl
      · simp only [isLine_append, (h e he).isLine_moduleName]
        decide +kernel
      · decide
      · simp only [isLine_append, (h e he).isLine_moduleName, (h e he).isLine_typeName]
        decide +kernel
      · decide
  · simp only [nameLines, List.mem_cons, List.not_mem_nil, or_false] at htext
    rcases htext with rfl | rfl | rfl
    · decide
    · simp only [isLine_append, isLine_quotedList]
      decide +kernel
    · decide
  · revert text
    decide +kernel
  · exact (h e he).isLine_accessor text htext
  · decide

/-- What is read off the text of the registry module: its imports, a module and a type for each table
and two items of its own, then two methods of its own and one for each table. -/
theorem declarations_registryModule (h : ∀ e ∈ entries, e.IsNamed) :
    declarations (registryModule entries) = registryDeclarations entries := by
  have hclose : ["\x7d"].flatMap declarationsOn = [] := by decide +kernel
  have hlast : [""].flatMap declarationsOn = [] := by decide +kernel
  rw [declarations, registryModule, linesOf_unlines (isLine_registryLines h), registryLines]
  simp only [List.flatMap_append, declarations_imports, declarations_modules h, declarations_names,
    declarations_registryType, declarations_each fun e he => (h e he).declarations_accessor, hclose, hlast]
  simp [registryDeclarations, itemNames, methodNames]

/-- If no two names of tables are equal, then no two names of some of the tables are. -/
theorem nodup_tableNames_of_subset {all : List TableEntry} (hall : (tableNames all).Nodup)
    (hnodup : entries.Nodup) (hsubset : entries ⊆ all) : (tableNames entries).Nodup := by
  obtain ⟨hmodules, htypes, hcross⟩ := List.nodup_append.1 hall
  refine List.nodup_append.2 ⟨?_, ?_, ?_⟩
  · exact hnodup.map_on fun e he e' he' h => List.inj_on_of_nodup_map hmodules (hsubset he) (hsubset he') h
  · exact hnodup.map_on fun e he e' he' h => List.inj_on_of_nodup_map htypes (hsubset he) (hsubset he') h
  · intro module hmodule type htype
    exact hcross module (List.map_subset _ hsubset hmodule) type (List.map_subset _ hsubset htype)

/-- The registry module declares nothing twice when no two names of its tables are equal and none is
reserved or that of the list of type names. -/
theorem nodup_registryDeclarations (hdistinct : (tableNames entries).Nodup)
    (hfree : ∀ name ∈ tableNames entries,
      name ∉ reservedTypes ∧ name ∉ reservedModules ∧ name ≠ "TABLE_NAMES") :
    (registryDeclarations entries).Nodup := by
  have hown : ∀ name ∈ importedNames entries ++ ["TABLE_NAMES", "Tables"],
      name ∈ reservedTypes ∨ name ∈ reservedModules ∨ name = "TABLE_NAMES" := by
    unfold importedNames
    split_ifs <;> decide
  have himports : (importedNames entries ++ ["TABLE_NAMES", "Tables"]).Nodup := by
    unfold importedNames
    split_ifs <;> decide
  have hitems : (itemNames entries).Nodup := by
    have hperm : (itemNames entries).Perm
        ((importedNames entries ++ ["TABLE_NAMES", "Tables"]) ++ tableNames entries) := by
      rw [itemNames, List.append_assoc, List.append_assoc]
      exact List.perm_append_comm.append_left _
    refine hperm.nodup_iff.2 (List.nodup_append.2 ⟨himports, hdistinct, ?_⟩)
    rintro name hname _ htable rfl
    obtain ⟨htype, hmodule, hlist⟩ := hfree name htable
    rcases hown name hname with h | h | h
    · exact htype h
    · exact hmodule h
    · exact hlist h
  have hmodules : ∀ name ∈ entries.map TableEntry.moduleName, name ∉ reservedModules :=
    fun name hname => (hfree name (List.mem_append_left _ hname)).2.1
  have hmethods : (methodNames entries).Nodup := by
    have hnew : "new" ∉ entries.map TableEntry.moduleName := fun h => hmodules _ h (by decide)
    have hregistry : "registry" ∉ entries.map TableEntry.moduleName := fun h => hmodules _ h (by decide)
    simp only [methodNames, List.nodup_cons, List.mem_cons, not_or]
    exact ⟨⟨by decide, hnew⟩, hregistry, (List.nodup_append.1 hdistinct).1⟩
  refine List.nodup_append.2 ⟨hitems.map fun _ _ h => Declaration.item.inj h,
    hmethods.map fun _ _ h => Declaration.method.inj h, ?_⟩
  rintro _ hitem _ hmethod rfl
  obtain ⟨_, -, rfl⟩ := List.mem_map.1 hitem
  obtain ⟨_, -, h⟩ := List.mem_map.1 hmethod
  cases h

end TypedTables.Source
