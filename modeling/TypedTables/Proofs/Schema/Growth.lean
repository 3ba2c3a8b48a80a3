/-
Schemas that grow at the end. Columns behind the last one, cells behind the last one of each row and
rows behind the last one keep what is in a schema: the names of the table, its columns with the names of
their fields and enum types, and the literals of each enum with their variants. Names are claimed in
order, so nothing that comes later renames what came before. Main statement: `build_grows`.

A row that is too short for an enum column may get a blank cell there, but no text. It would show the text
in front of the texts of the rows below, and these would move (`literals_moved_by_shortRow`).
-/
import Mathlib.Data.List.Forall2
import TypedTables.Proofs.Schema.Build

namespace TypedTables.Schema

open TypedTables.Csv TypedTables.Text

/-! ## What may grow -/

/-- An enum gets further literals behind those that it has, and nothing else changes. -/
inductive ColumnKind.Grows : ColumnKind → ColumnKind → Prop where
  | scalar (s : Scalar) : Grows (.scalar s) (.scalar s)
  | enumeration (type : String) {known grown : List Literal} (h : known <+: grown) :
    Grows (.enumeration ⟨type, known⟩) (.enumeration ⟨type, grown⟩)

/-- The second column has the names of the first, and its kind is that of the first or has grown. -/
structure Column.Grows (c c' : Column) : Prop where
  name : c'.name = c.name
  field : c'.field = c.field
  kind : c.kind.Grows c'.kind

namespace TableSchema

/-- The second schema has the names of the first, whose columns are its first ones. -/
structure Grows (s s' : TableSchema) : Prop where
  tableName : s'.tableName = s.tableName
  moduleName : s'.moduleName = s.moduleName
  recordName : s'.recordName = s.recordName
  columns : ∃ kept new, s'.columns = kept ++ new ∧ List.Forall₂ Column.Grows s.columns kept

/-- Whether the column at a position is an enum column. -/
def isEnumAt (s : TableSchema) (k : Nat) : Bool := (s.columns[k]?.bind Column.enum?).isSome

theorem isEnumAt_iff {s : TableSchema} {k : Nat} :
    s.isEnumAt k = true ↔ ∃ c e, s.columns[k]? = some c ∧ c.kind = .enumeration e := by
  unfold isEnumAt
  constructor
  · intro h
    obtain ⟨e, h⟩ := Option.isSome_iff_exists.1 h
    obtain ⟨⟨name, field, kind⟩, hc, he⟩ := Option.bind_eq_some_iff.1 h
    cases kind with
    | scalar => cases he
    | enumeration e => exact ⟨_, e, hc, rfl⟩
  · rintro ⟨⟨name, field, kind⟩, e, hc, rfl⟩
    rw [hc]
    rfl

/-- The second row has the cells of the first and further ones behind them. In an enum column of the
schema that the first row is too short for, the second one has at most a blank cell. -/
structure RowGrows (s : TableSchema) (row row' : Row) : Prop where
  cells : row.cells <+: row'.cells
  short : ∀ k < s.columns.length, s.isEnumAt k = true → row.size ≤ k →
    ∀ cell ∈ row'.valueAt? k, trim cell = ""

instance (s : TableSchema) (row row' : Row) : Decidable (s.RowGrows row row') :=
  decidable_of_iff (row.cells <+: row'.cells ∧
      ∀ k < s.columns.length, s.isEnumAt k = true → row.size ≤ k →
        ∀ cell ∈ row'.valueAt? k, trim cell = "")
    ⟨fun h => ⟨h.1, h.2⟩, fun h => ⟨h.cells, h.short⟩⟩

end TableSchema

/-! ## Literals -/

/-- The literals of texts do not depend on the texts behind them. -/
theorem literalsFrom_append : ∀ (texts further seen taken : List String),
    literalsFrom seen taken texts <+: literalsFrom seen taken (texts ++ further)
  | [], _, _, _ => List.nil_prefix
  | text :: rest, further, seen, taken => by
    rw [List.cons_append, literalsFrom, literalsFrom]
    split
    · exact literalsFrom_append rest further seen taken
    · rw [List.prefix_cons_inj]
      exact literalsFrom_append rest further (text :: seen) _

theorem columnTexts_append (k : Nat) (rows further : List Row) :
    columnTexts k (rows ++ further) = columnTexts k rows ++ columnTexts k further := by
  simp [columnTexts]

theorem columnTexts_singleton (k : Nat) (row : Row) :
    columnTexts k [row] = ((row.valueAt? k).map trim).toList.filter fun text => !text.isEmpty := by
  unfold columnTexts
  cases hcell : row.valueAt? k <;> simp [hcell]

/-- In the enum columns of a schema a grown row shows the text that it showed before, if any. -/
theorem TableSchema.RowGrows.columnTexts {s : TableSchema} {row row' : Row} (h : s.RowGrows row row')
    {k : Nat} {c : Column} {e : EnumType} (hc : s.columns[k]? = some c)
    (he : c.kind = .enumeration e) : columnTexts k [row'] = columnTexts k [row] := by
  rw [columnTexts_singleton, columnTexts_singleton]
  by_cases hk : k < row.size
  · obtain ⟨further, hcells⟩ := h.cells
    have hvalue : row'.valueAt? k = row.valueAt? k := by
      unfold Row.valueAt?
      rw [← hcells, List.getElem?_append_left hk]
    rw [hvalue]
  · have hlength : k < s.columns.length := (List.getElem?_eq_some_iff.1 hc).1
    have hblank := h.short k hlength (isEnumAt_iff.2 ⟨c, e, hc, he⟩) (Nat.not_lt.1 hk)
    rw [Row.valueAt?_eq_none (Nat.not_lt.1 hk)]
    cases hcell : row'.valueAt? k with
    | none => rfl
    | some cell => simp [hblank cell hcell]

theorem columnTexts_congr {k : Nat} {rows rows' : List Row}
    (h : List.Forall₂ (fun row row' => columnTexts k [row'] = columnTexts k [row]) rows rows') :
    columnTexts k rows' = columnTexts k rows := by
  induction h with
  | nil => rfl
  | @cons row row' rows rows' hrow _ ih =>
    calc columnTexts k (row' :: rows')
        = columnTexts k [row'] ++ columnTexts k rows' := columnTexts_append k [row'] rows'
      _ = columnTexts k [row] ++ columnTexts k rows := by rw [hrow, ih]
      _ = columnTexts k (row :: rows) := (columnTexts_append k [row] rows).symm

/-- Rows that show the same texts in a column make the same literals first, whatever rows come behind. -/
theorem literals_append {k : Nat} {rows kept : List Row} (further : List Row)
    (h : List.Forall₂ (fun row row' => columnTexts k [row'] = columnTexts k [row]) rows kept) :
    literals k rows <+: literals k (kept ++ further) := by
  unfold literals
  rw [columnTexts_append, columnTexts_congr h]
  apply literalsFrom_append

/-! ## Columns -/

/-- The columns of a header are claimed before those behind them. They get the names that they got
without these, and the literals of other rows if only those grow. -/
theorem columnsFrom_grows {table : String} {rows rows' : List Row} {further : List (String × String)} :
    ∀ {cells : List (String × String)} {index : Nat} {fields types : List String}
      {columns columns' : List Column},
      columnsFrom table rows index fields types cells = .ok columns →
      columnsFrom table rows' index fields types (cells ++ further) = .ok columns' →
      (∀ k c e, columns[k]? = some c → c.kind = .enumeration e →
        literals (index + k) rows <+: literals (index + k) rows') →
      ∃ kept new, columns' = kept ++ new ∧ List.Forall₂ Column.Grows columns kept
  | [], _, _, _, _, columns', h, _, _ => by
    cases h
    exact ⟨[], columns', rfl, .nil⟩
  | (name, token) :: rest, index, fields, types, columns, columns', h, h', hliterals => by
    simp only [List.cons_append, columnsFrom] at h h'
    cases hdeclared : Declared.parse? token with
    | none =>
      rw [hdeclared] at h
      cases h
    | some declared =>
      rw [hdeclared] at h h'
      -- the first column is made of the same names in both, and each tail of its own rest
      have htails : ∀ {c tail}, columns = c :: tail → ∀ k c' e, tail[k]? = some c' →
          c'.kind = .enumeration e →
            literals (index + 1 + k) rows <+: literals (index + 1 + k) rows' := by
        rintro c tail rfl k c' e hc he
        rw [Nat.add_right_comm]
        exact hliterals (k + 1) c' e hc he
      cases declared with
      | scalar s =>
        obtain ⟨tail, htail, h⟩ := exists_of_bind_ok h
        obtain ⟨tail', htail', h'⟩ := exists_of_bind_ok h'
        cases h
        cases h'
        obtain ⟨kept, new, rfl, hkept⟩ := columnsFrom_grows htail htail' (htails rfl)
        exact ⟨_ :: kept, new, rfl, .cons ⟨rfl, rfl, .scalar s⟩ hkept⟩
      | enumeration =>
        obtain ⟨tail, htail, h⟩ := exists_of_bind_ok h
        obtain ⟨tail', htail', h'⟩ := exists_of_bind_ok h'
        cases h
        cases h'
        obtain ⟨kept, new, rfl, hkept⟩ := columnsFrom_grows htail htail' (htails rfl)
        have hfirst := hliterals 0 _ _ rfl rfl
        exact ⟨_ :: kept, new, rfl, .cons ⟨rfl, rfl, .enumeration _ hfirst⟩ hkept⟩

/-! ## Whole schemas -/

/-- A schema only grows when columns are put behind its last one, cells behind the last one of each row
and rows behind the last one, as long as a row too short for an enum column gets no text in it. The names
of the table stay, and so do the columns with the names of their fields and enum types, and each enum
keeps its literals and their variants as its first ones. -/
theorem build_grows {stem : String} {header types names tokens : List String}
    {rows kept further : List Row} {s s' : TableSchema} (h : build stem header types rows = .ok s)
    (hrows : List.Forall₂ s.RowGrows rows kept)
    (h' : build stem (header ++ names) (types ++ tokens) (kept ++ further) = .ok s') : s.Grows s' := by
  obtain ⟨tableNames, columns, hb⟩ := build_cases h
  obtain ⟨tableNames', columns', hb'⟩ := build_cases h'
  obtain rfl : tableNames = tableNames' := Except.ok.inj (hb.named.symm.trans hb'.named)
  have hcolumns : s.columns = columns := by rw [hb.eq]
  have hmade' := hb'.columnsMade
  rw [List.zip_append hb.widths] at hmade'
  have hgrown := columnsFrom_grows hb.columnsMade hmade' fun k c e hc he => by
    rw [Nat.zero_add]
    apply literals_append
    exact hrows.imp fun row row' hrow => hrow.columnTexts (hcolumns ▸ hc) he
  rw [hb.eq, hb'.eq]
  exact ⟨rfl, rfl, rfl, hgrown⟩

/-- A schema with an enum whose second text is spelled like the first but for the case. -/
def kindsSchema : TableSchema :=
  ⟨"Shop", "shop", "ShopRecord",
    [⟨"kind", "kind", .enumeration ⟨"Kind", [⟨"A", "A"⟩, ⟨"a", "A2"⟩]⟩⟩, ⟨"Count", "count", .scalar .int⟩],
    false⟩

/-- The schema grown by a column with the name of the first but for the case, and by a text that is the
variant of the second one. -/
def moreKindsSchema : TableSchema :=
  ⟨"Shop", "shop", "ShopRecord",
    [⟨"kind", "kind", .enumeration ⟨"Kind", [⟨"A", "A"⟩, ⟨"a", "A2"⟩, ⟨"A2", "A22"⟩]⟩⟩,
      ⟨"Count", "count", .scalar .int⟩,
      ⟨"Kind", "kind_2", .enumeration ⟨"ShopKind", [⟨"x", "X"⟩]⟩⟩], false⟩

/-- Rows of two columns, two of which are too short for the second column and one for both. -/
def kindsRows : List Row := [⟨3, [("kind", " A ")]⟩, ⟨4, [("kind", "a"), ("Count", "2")]⟩, ⟨5, []⟩]

/-- The same rows with further cells, and a blank one where the empty row had none for the enum. -/
def moreKindsRows : List Row :=
  [⟨3, [("kind", " A "), ("Count", "A2"), ("Kind", "")]⟩, ⟨4, [("kind", "a"), ("Count", "2"), ("Kind", "x")]⟩,
    ⟨5, [("kind", " "), ("Count", "0")]⟩]

theorem build_grows_kinds :
    build "shop" ["kind", "Count"] ["enum", "int"] kindsRows = .ok kindsSchema ∧
      List.Forall₂ kindsSchema.RowGrows kindsRows moreKindsRows ∧
      build "shop" (["kind", "Count"] ++ ["Kind"]) (["enum", "int"] ++ ["enum"])
        (moreKindsRows ++ [⟨6, [("kind", "A2")]⟩]) = .ok moreKindsSchema ∧
      kindsSchema.Grows moreKindsSchema := by
  have hbuild : build "shop" ["kind", "Count"] ["enum", "int"] kindsRows = .ok kindsSchema := by
    decide +kernel
  have hrows : List.Forall₂ kindsSchema.RowGrows kindsRows moreKindsRows :=
    .cons (by decide) (.cons (by decide) (.cons (by decide) .nil))
  have hbuild' : build "shop" (["kind", "Count"] ++ ["Kind"]) (["enum", "int"] ++ ["enum"])
      (moreKindsRows ++ [⟨6, [("kind", "A2")]⟩]) = .ok moreKindsSchema := by
    decide +kernel
  exact ⟨hbuild, hrows, hbuild', build_grows hbuild hrows hbuild'⟩

/-- A row without a cell in the enum column above one with the text `b`. -/
def shortRows : List Row := [⟨3, [("ID", "1")]⟩, ⟨4, [("ID", "2"), ("Kind", "b")]⟩]

/-- The same rows with further cells at their ends, the first of which is in the enum column. -/
def lengthenedRows : List Row :=
  [⟨3, [("ID", "1"), ("Kind", "a"), ("Note", "n")]⟩, ⟨4, [("ID", "2"), ("Kind", "b"), ("Note", "n")]⟩]

/-- Cells at the ends of all rows are not enough: a row that was too short for an enum column shows its
text before that of the row below, whose literal then is no longer the first one. -/
theorem literals_moved_by_shortRow : ∃ s s',
    build "items" ["ID", "Kind"] ["int", "enum"] shortRows = .ok s ∧
      List.Forall₂ (fun row row' => row.cells <+: row'.cells) shortRows lengthenedRows ∧
      build "items" (["ID", "Kind"] ++ ["Note"]) (["int", "enum"] ++ ["string"]) lengthenedRows = .ok s' ∧
      s.enumColumns.map (fun c => c.2.texts) = [["b"]] ∧
      s'.enumColumns.map (fun c => c.2.texts) = [["a", "b"]] ∧ ¬ s.Grows s' := by
  refine ⟨⟨"Items", "items", "ItemsRecord", [⟨"ID", "id", .scalar .int⟩,
      ⟨"Kind", "kind", .enumeration ⟨"Kind", [⟨"b", "B"⟩]⟩⟩], true⟩,
    ⟨"Items", "items", "ItemsRecord", [⟨"ID", "id", .scalar .int⟩,
      ⟨"Kind", "kind", .enumeration ⟨"Kind", [⟨"a", "A"⟩, ⟨"b", "B"⟩]⟩⟩, ⟨"Note", "note", .scalar .string⟩],
      true⟩,
    by decide +kernel, .cons (by decide) (.cons (by decide) .nil), by decide +kernel, rfl, rfl, ?_⟩
  rintro ⟨-, -, -, kept, new, hcolumns, hkept⟩
  -- the second column would have the literal of `b` in front
  obtain _ | ⟨-, _ | ⟨⟨-, -, hkind⟩, -⟩⟩ := hkept
  simp only [List.cons_append, List.cons.injEq] at hcolumns
  obtain ⟨-, rfl, -⟩ := hcolumns
  cases hkind with
  | enumeration _ h => exact absurd h (by decide)

end TypedTables.Schema
