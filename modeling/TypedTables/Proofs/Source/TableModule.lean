/-
The module of a table determines its schema. All that is put into a line is an identifier or quoted,
so no text that a schema holds begins a line of its own, and two modules with one text have the same
lines. In these the fields of the record and the variants of an enum end at the first line that is not
indented, a literal is read back to its text, and the way a cell is coerced tells the kind of its
column. What is not written, which is the name of the module and whether there is a key, follows from
the rest. Main statement: `tableModule_inj`.
-/
import TypedTables.Proofs.Schema.Names
import TypedTables.Proofs.Source.RegistryNames
import TypedTables.Proofs.Text.Quoted
import TypedTables.Source.TableModule

namespace TypedTables.Source

open TypedTables.Csv TypedTables.Naming TypedTables.Schema TypedTables.Text

/-! ## Lines of a module -/

theorem isLine_of_isName {name : String} (h : IsName name) : IsLine name :=
  not_mem_of_isIdentifier h.identifier (by decide)

theorem isLine_line {level : Nat} {text : String} (h : IsLine text) : IsLine (line level text) := by
  refine isLine_append.2 ⟨?_, h⟩
  simp [IsLine]

theorem isLine_renamed (text : String) : IsLine (renamed text) :=
  isLine_append.2 ⟨isLine_append.2 ⟨by decide, isLine_quoted text⟩, by decide⟩

section

variable {s : TableSchema}

theorem isLine_fieldType (hs : s.NamesUsable) {c : Column} (hc : c ∈ s.columns) : IsLine c.fieldType := by
  cases hkind : c.kind with
  | scalar scalar =>
    rw [Column.fieldType, hkind]
    cases scalar <;> decide
  | enumeration e =>
    rw [Column.fieldType, hkind]
    refine isLine_of_isName (hs.enumTypeNames e (List.mem_filterMap.2 ⟨c, hc, ?_⟩))
    rw [Column.enum?, hkind]

theorem isLine_fieldLines (hs : s.NamesUsable) {c : Column} (hc : c ∈ s.columns) :
    ∀ text ∈ fieldLines c, IsLine text := by
  have hfield := isLine_of_isName (hs.fieldNames c hc)
  have htype := isLine_fieldType hs hc
  simp +decide [fieldLines, isLine_line, isLine_renamed, isLine_append, hfield, htype]

theorem isLine_enumLines {e : EnumType} (hname : IsName e.typeName) (he : e.NamesUsable) :
    ∀ text ∈ enumLines e, IsLine text := by
  have htype := isLine_of_isName hname
  have hvariants : ∀ l ∈ e.literals, ∀ text ∈ variantLines l, IsLine text := by
    intro l hl
    have hvariant := isLine_of_isName (he.variantNames l hl)
    simp +decide [variantLines, isLine_line, isLine_renamed, isLine_append, hvariant]
  have hmatches : ∀ l ∈ e.literals, IsLine (matchLine l) := by
    intro l hl
    have hvariant := isLine_of_isName (he.variantNames l hl)
    refine isLine_line ?_
    simp +decide [isLine_quoted, isLine_append, hvariant]
  have htypeLines : ∀ text ∈ enumTypeLines e, IsLine text := by
    unfold enumTypeLines
    split_ifs
    · simp +decide [isLine_append, htype]
    · simp only [List.forall_mem_append, List.forall_mem_flatMap]
      exact ⟨⟨by decide, ⟨by simp +decide [isLine_append, htype], hvariants⟩, by decide⟩, by decide⟩
  have hliteralLines : ∀ text ∈ fromLiteralLines e, IsLine text := by
    unfold fromLiteralLines
    split_ifs
    · decide
    · simp only [List.forall_mem_append, List.forall_mem_map]
      exact ⟨⟨by decide, hmatches⟩, by decide⟩
  simp only [enumLines, enumImplLines, List.forall_mem_append]
  refine ⟨htypeLines, ⟨?_, hliteralLines⟩, by decide⟩
  simp +decide [isLine_line, isLine_append, isLine_quotedList, htype]

/-- The name of the key is written as it stands, since it is always the same. -/
theorem isLine_getLines (hs : s.NamesUsable) : ∀ text ∈ getLines s, IsLine text := by
  have hrecord := isLine_of_isName hs.recordName
  unfold getLines
  split
  · rename_i id hid
    have hfound : s.column? idColumn = some id := by
      unfold TableSchema.idColumn? at hid
      split_ifs at hid
      exact hid
    have hmem := List.mem_of_find?_eq_some hfound
    have hname : id.name = idColumn := by simpa using List.find?_some hfound
    have hfield := isLine_of_isName (hs.fieldNames id hmem)
    have htype := isLine_fieldType hs hmem
    simp +decide [isLine_line, isLine_append, hname, hfield, htype, hrecord]
  · simp +decide [isLine_line, isLine_append, hrecord]

theorem isLine_coerceLine (hs : s.NamesUsable) {c : Column} (hc : c ∈ s.columns) :
    IsLine (coerceLine c) := by
  have hfield := isLine_of_isName (hs.fieldNames c hc)
  have hfunction : IsLine (coerceFunction c.kind) := by
    rcases c.kind with scalar | e
    · cases scalar <;> decide
    · exact (show IsLine "enumeration" by decide)
  refine isLine_line ?_
  simp +decide [isLine_append, isLine_quoted, hfield, hfunction]

/-- No line of a module has a line feed in it. -/
theorem isLine_tableLines (hs : s.NamesUsable) : ∀ text ∈ tableLines s, IsLine text := by
  have htable := isLine_of_isName hs.tableName
  have hrecord := isLine_of_isName hs.recordName
  have henums : ∀ c ∈ s.enumColumns, ∀ text ∈ enumLines c.2, IsLine text := by
    intro c hc
    obtain ⟨column, hcolumn, he⟩ := List.mem_filterMap.1 hc
    obtain ⟨e, hkind, rfl⟩ := Option.map_eq_some_iff.1 he
    have hmem : e ∈ s.enums := List.mem_filterMap.2 ⟨column, hcolumn, hkind⟩
    exact isLine_enumLines (hs.enumTypeNames e hmem) (hs.enums e hmem)
  simp only [tableLines, recordTypeLines, tableMethodLines, fromRowLines, List.forall_mem_append,
    List.forall_mem_flatMap, List.forall_mem_map]
  refine ⟨⟨⟨⟨⟨⟨?_, ?_⟩, ⟨?_, fun c hc => isLine_fieldLines hs hc⟩, by decide⟩, henums⟩,
    ⟨?_, isLine_getLines hs⟩, ?_⟩, ⟨?_, fun c hc => isLine_coerceLine hs hc⟩, by decide⟩, ?_⟩
  · unfold headLines
    split_ifs <;> simp +decide [isLine_append, htable]
  · simp +decide [tableTypeLines, isLine_line, isLine_append, htable, hrecord]
  · simp +decide [isLine_append, hrecord]
  · simp +decide [isLine_append, htable]
  · simp +decide [isLine_line, isLine_append, hrecord]
  · simp +decide [isLine_append, hrecord]
  · simp +decide [tableImplLines, isLine_line, isLine_append, isLine_quoted, htable, hrecord]

end

/-! ## Equal lines -/

theorem line_inj {level : Nat} {text other : String} :
    line level text = line level other ↔ text = other :=
  String.append_right_inj _

theorem renamed_inj {text other : String} : renamed text = renamed other ↔ text = other := by
  unfold renamed
  exact (String.append_left_inj _).trans ((String.append_right_inj _).trans quoted_inj)

/-- What stands before the first occurrence of a character, and what behind it. -/
theorem append_cons_inj {c : Char} {back back' : List Char} : ∀ {front front' : List Char},
    c ∉ front → c ∉ front' → front ++ c :: back = front' ++ c :: back' →
      front = front' ∧ back = back'
  | [], [], _, _, h => ⟨rfl, (List.cons.inj h).2⟩
  | [], d :: _, _, hnot, h => absurd (List.cons.inj h).1 (List.ne_of_not_mem_cons hnot)
  | d :: _, [], hnot, _, h => absurd (List.cons.inj h).1.symm (List.ne_of_not_mem_cons hnot)
  | d :: front, d' :: front', hnot, hnot', h => by
    obtain ⟨rfl, htail⟩ := List.cons.inj h
    obtain ⟨rfl, hback⟩ := append_cons_inj (List.not_mem_of_not_mem_cons hnot)
      (List.not_mem_of_not_mem_cons hnot') htail
    exact ⟨rfl, hback⟩

theorem fieldLines_inj {c d : Column} (hc : ':' ∉ c.field.toList) (hd : ':' ∉ d.field.toList)
    (h : fieldLines c = fieldLines d) :
    c.name = d.name ∧ c.field = d.field ∧ c.fieldType = d.fieldType := by
  simp only [fieldLines, List.cons.injEq, line_inj, renamed_inj, and_true] at h
  obtain ⟨hname, hfield⟩ := h
  have hchars : c.field.toList ++ ':' :: ' ' :: (c.fieldType.toList ++ [',']) =
      d.field.toList ++ ':' :: ' ' :: (d.fieldType.toList ++ [',']) := by
    simpa using congrArg String.toList hfield
  obtain ⟨hfields, hback⟩ := append_cons_inj hc hd hchars
  have htypes := List.append_cancel_right (List.cons.inj hback).2
  exact ⟨hname, String.toList_inj.1 hfields, String.toList_inj.1 htypes⟩

theorem variantLines_inj {l m : Literal} (h : variantLines l = variantLines m) : l = m := by
  simp only [variantLines, List.cons.injEq, line_inj, renamed_inj, String.append_left_inj,
    and_true] at h
  obtain ⟨text, variant⟩ := l
  obtain ⟨rfl, rfl⟩ := h
  rfl

/-! ## Blocks of indented lines -/

/-- A line that starts with a space. -/
def IsIndented (text : String) : Prop := text.toList.head? = some ' '

theorem isIndented_line (level : Nat) (text : String) : IsIndented (line (level + 1) text) := by
  simp [IsIndented, line, Nat.mul_add, List.replicate_succ]

/-- Blocks of two lines, the first of which is indented, end where a line is not. -/
theorem forall₂_of_flatMap {α : Type} {f : α → List String}
    (hf : ∀ a, ∃ first second, f a = [first, second] ∧ IsIndented first) {stop : String}
    (hstop : ¬ IsIndented stop) {rest rest' : List String} : ∀ {l l' : List α},
    l.flatMap f ++ stop :: rest = l'.flatMap f ++ stop :: rest' →
      List.Forall₂ (fun a b => f a = f b) l l' ∧ rest = rest'
  | [], [], h => ⟨.nil, (List.cons.inj h).2⟩
  | [], a :: _, h => by
    obtain ⟨first, second, ha, hfirst⟩ := hf a
    rw [List.flatMap_cons, ha] at h
    exact absurd ((List.cons.inj h).1 ▸ hfirst) hstop
  | a :: _, [], h => by
    obtain ⟨first, second, ha, hfirst⟩ := hf a
    rw [List.flatMap_cons, ha] at h
    exact absurd ((List.cons.inj h).1 ▸ hfirst) hstop
  | a :: l, b :: l', h => by
    obtain ⟨_, _, ha, -⟩ := hf a
    obtain ⟨_, _, hb, -⟩ := hf b
    rw [List.flatMap_cons, List.flatMap_cons, List.append_assoc, List.append_assoc] at h
    obtain ⟨hfirst, h⟩ := List.append_inj h (by rw [ha, hb]; rfl)
    obtain ⟨hl, hrest⟩ := forall₂_of_flatMap hf hstop h
    exact ⟨.cons hfirst hl, hrest⟩

theorem exists_fieldLines (c : Column) :
    ∃ first second, fieldLines c = [first, second] ∧ IsIndented first :=
  ⟨_, _, rfl, isIndented_line 0 _⟩

theorem exists_variantLines (l : Literal) :
    ∃ first second, variantLines l = [first, second] ∧ IsIndented first :=
  ⟨_, _, rfl, isIndented_line 0 _⟩

theorem not_isIndented_brace : ¬ IsIndented "\x7d" := by
  unfold IsIndented
  decide

/-! ## Enums -/

theorem enumLines_nil (type : String) :
    ∃ back, enumLines ⟨type, []⟩ =
      "#[derive(Debug, Clone, Copy, PartialEq, Eq, Hash, Serialize, Deserialize)]" ::
        ("pub enum " ++ type ++ " \x7b\x7d") :: back :=
  ⟨_, rfl⟩

theorem enumLines_cons (type : String) (l : Literal) (literals : List Literal) :
    ∃ back, enumLines ⟨type, l :: literals⟩ =
      "#[derive(Debug, Clone, Copy, PartialEq, Eq, Hash, Serialize, Deserialize)]" ::
        ("pub enum " ++ type ++ " \x7b") :: ((l :: literals).flatMap variantLines ++ "\x7d" :: back) := by
  refine ⟨blank :: enumImplLines ⟨type, l :: literals⟩, ?_⟩
  simp [enumLines, enumTypeLines, EnumType.isUninhabited]

/-- The lines of an enum with a known name determine its literals and where they end. -/
theorem enumLines_inj {e e' : EnumType} {rest rest' : List String} (hname : e.typeName = e'.typeName)
    (h : enumLines e ++ rest = enumLines e' ++ rest') : e = e' ∧ rest = rest' := by
  suffices he : e = e' by
    subst he
    exact ⟨rfl, List.append_cancel_left h⟩
  obtain ⟨type, literals⟩ := e
  obtain ⟨type', literals'⟩ := e'
  cases hname
  -- an enum without literals is closed on the line that opens it
  have hopen : "pub enum " ++ type ++ " \x7b\x7d" ≠ "pub enum " ++ type ++ " \x7b" := by
    rw [Ne, String.append_right_inj]
    decide
  rcases literals with _ | ⟨l, literals⟩ <;> rcases literals' with _ | ⟨l', literals'⟩
  · rfl
  · obtain ⟨_, hlines⟩ := enumLines_nil type
    obtain ⟨_, hlines'⟩ := enumLines_cons type l' literals'
    rw [hlines, hlines'] at h
    exact absurd (List.cons.inj (List.cons.inj h).2).1 hopen
  · obtain ⟨_, hlines⟩ := enumLines_cons type l literals
    obtain ⟨_, hlines'⟩ := enumLines_nil type
    rw [hlines, hlines'] at h
    exact absurd (List.cons.inj (List.cons.inj h).2).1 hopen.symm
  · obtain ⟨_, hlines⟩ := enumLines_cons type l literals
    obtain ⟨_, hlines'⟩ := enumLines_cons type l' literals'
    rw [hlines, hlines', List.cons_append, List.cons_append, List.cons_append, List.cons_append,
      List.append_assoc, List.append_assoc, List.cons_append, List.cons_append] at h
    have hvariants := (forall₂_of_flatMap exists_variantLines not_isIndented_brace
      (List.cons.inj (List.cons.inj h).2).2).1
    have hliterals : l :: literals = l' :: literals' := by
      rw [← List.forall₂_eq_eq_eq]
      exact hvariants.imp fun _ _ => variantLines_inj
    rw [hliterals]

/-! ## Columns -/

/-- Columns that are equal, or differ in the literals of their enums alone. -/
inductive Alike : Column → Column → Prop where
  | scalar (name field : String) (s : Scalar) : Alike ⟨name, field, .scalar s⟩ ⟨name, field, .scalar s⟩
  | enumeration (name field type : String) (literals literals' : List Literal) :
    Alike ⟨name, field, .enumeration ⟨type, literals⟩⟩ ⟨name, field, .enumeration ⟨type, literals'⟩⟩

theorem coerceFunction_scalar_inj {s t : Scalar}
    (h : coerceFunction (.scalar s) = coerceFunction (.scalar t)) : s = t := by
  revert h
  cases s <;> cases t <;> decide

theorem coerceFunction_scalar_ne (s : Scalar) (e : EnumType) :
    coerceFunction (.scalar s) ≠ coerceFunction (.enumeration e) := by
  show coerceFunction (.scalar s) ≠ "enumeration"
  cases s <;> decide

theorem alike_of_lines {c d : Column} (hc : ':' ∉ c.field.toList) (hd : ':' ∉ d.field.toList)
    (hfield : fieldLines c = fieldLines d) (hcoerce : coerceLine c = coerceLine d) : Alike c d := by
  obtain ⟨hname, hfield, htype⟩ := fieldLines_inj hc hd hfield
  obtain ⟨name, field, kind⟩ := c
  obtain ⟨name', field', kind'⟩ := d
  cases hname
  cases hfield
  have hfunction : coerceFunction kind = coerceFunction kind' := by
    simpa only [coerceLine, line_inj, String.append_left_inj, String.append_right_inj] using hcoerce
  rcases kind with s | ⟨type, literals⟩ <;> rcases kind' with t | ⟨type', literals'⟩
  · cases coerceFunction_scalar_inj hfunction
    exact .scalar ..
  · exact absurd hfunction (coerceFunction_scalar_ne s _)
  · exact absurd hfunction.symm (coerceFunction_scalar_ne t _)
  · cases htype
    exact .enumeration ..

theorem forall₂_alike : ∀ {l l' : List Column}, (∀ c ∈ l, ':' ∉ c.field.toList) →
    (∀ c ∈ l', ':' ∉ c.field.toList) → List.Forall₂ (fun c d => fieldLines c = fieldLines d) l l' →
      l.map coerceLine = l'.map coerceLine → List.Forall₂ Alike l l'
  | [], [], _, _, _, _ => .nil
  | c :: l, d :: l', hl, hl', hfields, hcoerce => by
    obtain ⟨hc, hl⟩ := List.forall_mem_cons.1 hl
    obtain ⟨hd, hl'⟩ := List.forall_mem_cons.1 hl'
    obtain ⟨hfield, hfields⟩ := List.forall₂_cons.1 hfields
    obtain ⟨hhead, htail⟩ := List.cons.inj hcoerce
    exact .cons (alike_of_lines hc hd hfield hhead) (forall₂_alike hl hl' hfields htail)

/-- The enums of columns that are alike are told apart by their lines. -/
theorem eq_of_forall₂_alike {l l' : List Column} (h : List.Forall₂ Alike l l') :
    (l.filterMap Column.enum?).flatMap enumLines = (l'.filterMap Column.enum?).flatMap enumLines →
      l = l' := by
  induction h with
  | nil => exact fun _ => rfl
  | cons hcd _ ih =>
    intro hlines
    cases hcd with
    | scalar name field s => rw [ih hlines]
    | enumeration name field type literals literals' =>
      simp only [List.filterMap_cons, Column.enum?, List.flatMap_cons] at hlines
      have htypes : (EnumType.mk type literals).typeName = (EnumType.mk type literals').typeName := rfl
      obtain ⟨he, hlines⟩ := enumLines_inj htypes hlines
      rw [he, ih hlines]

/-! ## Whole modules -/

/-- The lines before the fields of the record. -/
def frontLines (s : TableSchema) : List String :=
  headLines s ++ tableTypeLines s ++
    ["#[derive(Debug, Clone, PartialEq, Serialize, Deserialize)]", "pub struct " ++ s.recordName ++ " \x7b"]

/-- The lines behind the enums. -/
def backLines (s : TableSchema) : List String := tableMethodLines s ++ (fromRowLines s ++ tableImplLines s)

theorem enumColumns_flatMap (s : TableSchema) :
    s.enumColumns.flatMap (fun c => enumLines c.2) = s.enums.flatMap enumLines := by
  have henums : s.enums = s.enumColumns.map Prod.snd := by
    simp [TableSchema.enums, TableSchema.enumColumns, List.map_filterMap, Option.map_map, Function.comp_def]
  rw [henums, List.flatMap_map]

theorem tableLines_eq (s : TableSchema) :
    tableLines s = frontLines s ++
      (s.columns.flatMap fieldLines ++ "\x7d" :: blank :: (s.enums.flatMap enumLines ++ backLines s)) := by
  simp only [tableLines, recordTypeLines, frontLines, backLines, enumColumns_flatMap, List.append_assoc,
    List.cons_append, List.nil_append]

theorem length_getLines (s : TableSchema) : (getLines s).length = 4 := by
  unfold getLines
  split <;> rfl

theorem length_tableMethodLines (s : TableSchema) : (tableMethodLines s).length = 11 := by
  simp [tableMethodLines, length_getLines]

theorem coerceLines_inj {s t : TableSchema} (hlength : s.columns.length = t.columns.length)
    (h : backLines s = backLines t) : s.columns.map coerceLine = t.columns.map coerceLine := by
  have hmethods : (tableMethodLines s).length = (tableMethodLines t).length :=
    (length_tableMethodLines s).trans (length_tableMethodLines t).symm
  have hrow := (List.append_inj h hmethods).2
  simp only [fromRowLines, List.append_assoc, List.cons_append, List.nil_append, List.cons.injEq] at hrow
  exact (List.append_inj hrow.2.2.2 (by simpa using hlength)).1

/-- The lines of a module determine the columns of its schema. -/
theorem columns_inj {s t : TableSchema} (hs : s.NamesUsable) (ht : t.NamesUsable)
    (h : tableLines s = tableLines t) : s.columns = t.columns := by
  have hcolon {u : TableSchema} (hu : u.NamesUsable) : ∀ c ∈ u.columns, ':' ∉ c.field.toList :=
    fun c hc => not_mem_of_isIdentifier (hu.fieldNames c hc).identifier (by decide)
  rw [tableLines_eq, tableLines_eq] at h
  have hfront : (frontLines s).length = (frontLines t).length := rfl
  obtain ⟨hfields, hrest⟩ := forall₂_of_flatMap exists_fieldLines not_isIndented_brace
    (List.append_inj h hfront).2
  -- the enums have any number of lines, so they are bounded from behind
  have hback : (backLines s).length = (backLines t).length := by
    simp [backLines, fromRowLines, tableImplLines, length_tableMethodLines, hfields.length_eq]
  obtain ⟨henums, hback⟩ := List.append_inj' (List.cons.inj hrest).2 hback
  exact eq_of_forall₂_alike (forall₂_alike (hcolon hs) (hcolon ht) hfields
    (coerceLines_inj hfields.length_eq hback)) henums

theorem tableLines_inj {s t : TableSchema} (hs : s.NamesUsable) (ht : t.NamesUsable)
    (h : tableModule s = tableModule t) : tableLines s = tableLines t := by
  have hlines := congrArg linesOf h
  rw [tableModule, tableModule, linesOf_unlines (isLine_tableLines hs),
    linesOf_unlines (isLine_tableLines ht)] at hlines
  exact List.append_cancel_right hlines

/-- Schemas that are built, from whatever tables, are equal when their modules have one text. -/
theorem tableModule_inj {stem stem' : String} {header header' types types' : List String}
    {rows rows' : List Row} {s t : TableSchema} (hs : build stem header types rows = .ok s)
    (ht : build stem' header' types' rows' = .ok t) : tableModule s = tableModule t ↔ s = t := by
  refine ⟨?_, congrArg tableModule⟩
  intro h
  obtain ⟨_, _, hbuilt⟩ := build_cases hs
  obtain ⟨_, _, hbuilt'⟩ := build_cases ht
  have hlines := tableLines_inj hbuilt.namesUsable hbuilt'.namesUsable h
  have htable : s.tableName = t.tableName := by
    have hhead : "// Table: " ++ s.tableName = "// Table: " ++ t.tableName :=
      (List.cons.inj (List.cons.inj hlines).2).1
    exact (String.append_right_inj _).1 hhead
  have hcolumns := columns_inj hbuilt.namesUsable hbuilt'.namesUsable hlines
  rw [build_eq hs, build_eq ht, htable, hcolumns]

/-- Rows with two literals, and a row with one that imitates the lines of two variants. -/
def twoKinds : List Row := [["1", "a"], ["2", "b"]].map (Row.ofCells 3 ["ID", "Kind"])

def imitatedKinds : List Row :=
  [["1", "a\")]\n    A,\n    #[serde(rename = \"b"]].map (Row.ofCells 3 ["ID", "Kind"])

theorem tableModule_inj_imitation :
    ∃ s t, build "shop" ["ID", "Kind"] ["int", "enum"] twoKinds = .ok s ∧
      build "Shop" ["ID", "Kind"] ["INTEGER", " enum"] imitatedKinds = .ok t ∧
      s.tableName = t.tableName ∧ tableModule s ≠ tableModule t := by
  have hrun : (((build "shop" ["ID", "Kind"] ["int", "enum"] twoKinds).toOption.bind fun s =>
      (build "Shop" ["ID", "Kind"] ["INTEGER", " enum"] imitatedKinds).toOption.map fun t =>
        s.tableName == t.tableName && s != t) == some true) = true := by
    decide +kernel
  cases hs : build "shop" ["ID", "Kind"] ["int", "enum"] twoKinds with
  | error e => rw [hs] at hrun; cases hrun
  | ok s =>
    cases ht : build "Shop" ["ID", "Kind"] ["INTEGER", " enum"] imitatedKinds with
    | error e => rw [hs, ht] at hrun; cases hrun
    | ok t =>
      rw [hs, ht] at hrun
      simp only [Except.toOption, Option.bind_some, Option.map_some, beq_iff_eq, Option.some.injEq,
        Bool.and_eq_true, bne_iff_ne] at hrun
      exact ⟨s, t, rfl, rfl, hrun.1, fun h => hrun.2 ((tableModule_inj hs ht).1 h)⟩

end TypedTables.Source
