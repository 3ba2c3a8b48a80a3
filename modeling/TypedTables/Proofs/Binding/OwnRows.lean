/-
Rows bound against the schema made from them. Compiling collects the literals of an enum column by
position from the trimmed cells, binding looks a cell up by name, trims it and looks for the exact
text. In a table that was read and made into a schema the two agree: a cell is missing nowhere, and an
enum column refuses a cell exactly when it is blank. Main statement: `bind_own_rows`.
-/
import TypedTables.Binding.Dynamic
import TypedTables.Proofs.Binding.Rows
import TypedTables.Proofs.Csv.Lines
import TypedTables.Proofs.Entries
import TypedTables.Proofs.Schema.Literals

namespace TypedTables.Binding

open TypedTables.Csv TypedTables.Json TypedTables.Schema TypedTables.Text

variable {row : Row} {column raw : String}

/-! ## Cells that are refused -/

theorem readCell_error {α : Type} {read : List Char → Option α} {reason : Reason} {e : CoercionError}
    (hraw : row.get? column = some raw) (h : readCell read reason row column = .error e) :
    e = ⟨column, raw, reason⟩ := by
  rcases readCell_error_iff.1 h with ⟨hnone, -⟩ | ⟨raw', hcell, -, rfl⟩
  · rw [hraw] at hnone
    cases hnone
  · rw [Option.some.inj (hraw.symm.trans hcell)]

/-- Why a column refuses the cell that a row has for it: the report names the column and shows the
cell, which is there, and an unknown literal is the text of a cell that the column's enum lacks. -/
structure RefusedCell (c : Column) (raw : String) (e : CoercionError) : Prop where
  column : e.column = c.name
  cell : e.raw = raw
  present : e.reason ≠ .missingColumn
  literal : e.reason = .unknownLiteral → ∃ en, c.kind = .enumeration en ∧ trim raw ∉ en.texts

/-- An enum cell that is there is the trimmed text, if the enum has it. -/
theorem literalCell_of_get? {texts : List String} (hraw : row.get? column = some raw) :
    literalCell texts row column =
      if texts.contains (trim raw) then .ok (trim raw) else .error ⟨column, raw, .unknownLiteral⟩ := by
  unfold literalCell enumCell readCell
  simp only [hraw, ← trim.eq_def]
  cases texts.contains (trim raw) <;> rfl

theorem valueCell_error {c : Column} {e : CoercionError} (hraw : row.get? c.name = some raw)
    (h : valueCell c row = .error e) : RefusedCell c raw e := by
  obtain ⟨name, field, kind⟩ := c
  -- a number or a truth value is refused for a reason of its own
  have hscalar : ∀ {α : Type} {read : List Char → Option α} {reason : Reason} {f : α → Value},
      (readCell read reason row name).map f = .error e → reason ≠ .missingColumn →
        reason ≠ .unknownLiteral → RefusedCell ⟨name, field, kind⟩ raw e := by
    intro α read reason f hcell hpresent hliteral
    obtain rfl := readCell_error hraw (error_of_map_error hcell)
    exact ⟨rfl, rfl, hpresent, fun heq => absurd heq hliteral⟩
  cases kind with
  | scalar s =>
    cases s with
    | int | long | float | double | bool => exact hscalar h (by decide) (by decide)
    | string =>
      have hcell := error_of_map_error h
      unfold stringCell at hcell
      simp only [hraw] at hcell
      cases hcell
  | enumeration en =>
    have hcell := error_of_map_error h
    rw [literalCell_of_get? hraw] at hcell
    split at hcell
    · cases hcell
    · rename_i hnew
      cases hcell
      exact ⟨rfl, rfl, Reason.noConfusion, fun _ => ⟨en, rfl, by simpa using hnew⟩⟩

/-! ## Rows that are refused -/

theorem recordFrom_error : ∀ {columns : List Column} {found : Members} {e : CoercionError},
    recordFrom row found columns = .error e → ∃ c ∈ columns, valueCell c row = .error e
  | [], _, _, h => by cases h
  | c :: columns, found, e, h => by
    rw [recordFrom] at h
    split at h
    · rename_i hcell
      cases h
      exact ⟨c, List.mem_cons_self .., hcell⟩
    · obtain ⟨c', hc', hcell⟩ := recordFrom_error h
      exact ⟨c', List.mem_cons_of_mem _ hc', hcell⟩

/-- A row makes a record when every column reads its cell. -/
theorem isOk_recordFrom : ∀ {columns : List Column} {found : Members},
    (recordFrom row found columns).isOk = columns.all fun c => (valueCell c row).isOk
  | [], _ => rfl
  | c :: columns, found => by
    rw [recordFrom, List.all_cons]
    cases hcell : valueCell c row with
    | error e => rfl
    | ok v => exact isOk_recordFrom

/-! ## Rows of a table -/

/-- The cells of a data row have the names of the header, in order. -/
theorem names_of_mem_rows {text : String} {t : Table} (h : Table.parse text = .ok t) {row : Row}
    (hrow : row ∈ t.rows) : row.cells.map Prod.fst = t.header := by
  obtain ⟨-, -, data, -, hrows, -⟩ := parse_cases h
  rw [hrows] at hrow
  obtain ⟨r, hr, hok⟩ := List.mem_filterMap.1 hrow
  obtain ⟨record, -, rfl⟩ := List.mem_map.1 hr
  unfold rowOfRecord at hok
  split at hok
  · rename_i hwidth
    cases hok
    exact List.map_fst_zip (Nat.le_of_eq hwidth.symm)
  · cases hok

/-- Where no name comes twice, the cell under a name is the one at the name's position. -/
theorem get?_eq_valueAt? {header : List String} {k : Nat} (hnames : row.cells.map Prod.fst = header)
    (hnodup : header.Nodup) (hk : header[k]? = some column) :
    ∃ raw, row.get? column = some raw ∧ row.valueAt? k = some raw := by
  rw [← hnames, List.getElem?_map] at hk
  obtain ⟨⟨name, raw⟩, hcell, rfl⟩ := Option.map_eq_some_iff.1 hk
  refine ⟨raw, ?_, ?_⟩
  · -- the first cell of the name is the only one
    exact find?_of_mem (by rwa [hnames]) (List.mem_of_getElem? hcell)
  · rw [Row.valueAt?, hcell, Option.map_some]

/-- A row of the table that a schema was made from, and a column of the schema: the cell is there, and
an enum has its text unless the cell is blank. -/
structure OwnCell (c : Column) (row : Row) (raw : String) : Prop where
  cell : row.get? c.name = some raw
  texts : ∀ en, c.kind = .enumeration en → (trim raw ∈ en.texts ↔ isBlankText raw = false)

theorem exists_ownCell {text stem : String} {t : Table} {s : TableSchema}
    (hparse : Table.parse text = .ok t) (hbuild : build stem t.header t.types t.rows = .ok s)
    (hrow : row ∈ t.rows) {c : Column} (hc : c ∈ s.columns) : ∃ raw, OwnCell c row raw := by
  obtain ⟨hnodup, hcolumns⟩ := build_columnAt hbuild
  obtain ⟨k, hat⟩ := hcolumns c hc
  obtain ⟨raw, hget, hvalue⟩ := get?_eq_valueAt? (names_of_mem_rows hparse hrow) hnodup hat.name
  refine ⟨raw, hget, ?_⟩
  intro en hen
  -- the row is among those that the literals were collected from
  rw [hat.texts en hen, isBlankText, String.isEmpty_eq_false_iff]
  exact and_iff_left ⟨row, hrow, raw, hvalue, rfl⟩

/-! ## Tables bound against their own schema -/

/-- A column that holds texts: strings, or the literals of an enum. -/
def holdsTexts (c : Column) : Bool :=
  match c.kind with
  | .scalar s => s == .string
  | .enumeration _ => true

/-- Whether a row has a blank cell in some enum column. -/
def hasBlankLiteral (s : TableSchema) (row : Row) : Bool :=
  s.columns.any fun c => c.enum?.isSome && (row.get? c.name).any isBlankText

/-- The report of a row of the table that the schema was made from. No cell is missing, and a literal
is unknown only in an enum column in which the row's cell is blank. -/
structure OwnReport (s : TableSchema) (row : Row) (r : Rejection) : Prop
    extends Reports (dynamicRecord s) row r where
  present : r.error.reason ≠ .missingColumn
  blank : r.error.reason = .unknownLiteral → ∃ c ∈ s.columns, ∃ en raw, c.name = r.error.column ∧
    c.kind = .enumeration en ∧ row.get? c.name = some raw ∧ isBlankText raw = true

theorem isOk_valueCell {c : Column} (h : OwnCell c row raw) (htexts : holdsTexts c = true) :
    (valueCell c row).isOk = !(c.enum?.isSome && isBlankText raw) := by
  obtain ⟨name, field, kind⟩ := c
  cases kind with
  | scalar s =>
    obtain rfl : s = .string := by simpa [holdsTexts] using htexts
    simp only [valueCell, stringCell, h.cell]
    rfl
  | enumeration en =>
    have hmem := h.texts en rfl
    simp only [valueCell, literalCell_of_get? h.cell, List.contains_eq_mem, hmem]
    cases isBlankText raw <;> rfl

/-- Skipping invalid rows, a table binds against the schema made from its own rows. Each row left out
is reported in order, never for a missing cell, and for an unknown literal only where its cell is
blank. If every column holds texts, the rows left out are those with a blank cell in an enum column. -/
theorem bind_own_rows {text stem : String} {t : Table} {s : TableSchema}
    (hparse : Table.parse text = .ok t) (hbuild : build stem t.header t.types t.rows = .ok s) :
    ∃ d rejected, bindSchema .skipInvalidRows s t.rows = .ok (d, rejected) ∧
      List.Forall₂ (OwnReport s) (refused (dynamicRecord s) t.rows) rejected ∧
      (s.columns.all holdsTexts = true →
        refused (dynamicRecord s) t.rows = t.rows.filter (hasBlankLiteral s)) := by
  obtain ⟨b, hb⟩ := exists_bindRows_skip s.tableName (dynamicRecord s) t.rows
  refine ⟨⟨b.records⟩, b.rejected, by rw [bindSchema, hb]; rfl, ?_, ?_⟩
  · have hown : ∀ row ∈ refused (dynamicRecord s) t.rows, row ∈ t.rows :=
      fun row hrow => List.mem_of_mem_filter hrow
    refine ((List.forall₂_and_left _ _).2 ⟨hown, bindRows_rejected hb⟩).imp ?_
    rintro row r ⟨hrow, hreport⟩
    -- the report is that of the first column that refuses its cell
    obtain ⟨c, hc, hcell⟩ := recordFrom_error hreport.error
    obtain ⟨raw, hraw⟩ := exists_ownCell hparse hbuild hrow hc
    have hrefused := valueCell_error hraw.cell hcell
    refine ⟨hreport, hrefused.present, ?_⟩
    intro hliteral
    obtain ⟨en, hen, hnew⟩ := hrefused.literal hliteral
    refine ⟨c, hc, en, raw, hrefused.column.symm, hen, hraw.cell, ?_⟩
    rwa [hraw.texts en hen, Bool.not_eq_false] at hnew
  · intro htexts
    refine List.filter_congr ?_
    intro row hrow
    rw [dynamicRecord, isOk_recordFrom, hasBlankLiteral, List.not_all_eq_any_not, Bool.eq_iff_iff,
      List.any_eq_true, List.any_eq_true]
    refine exists_congr fun c => and_congr_right fun hc => ?_
    obtain ⟨raw, hraw⟩ := exists_ownCell hparse hbuild hrow hc
    rw [isOk_valueCell hraw (List.all_eq_true.1 htexts c hc), hraw.cell, Bool.not_not, Option.any_some]

/-- Two enum columns with literals between blanks of all sorts, and a row with a blank in each. -/
def rarityText : String :=
  "Name,Kind,Rarity\nstring,enum,enum\nSword,\u00A0Weapon\u3000,Common\nShield,\u2003,Common\n,Weapon,\n" ++
    " ,Weapon\t,Rare"

theorem bind_own_rows_rarity : ∃ t s, Table.parse rarityText = .ok t ∧
    build "rarity" t.header t.types t.rows = .ok s ∧ s.columns.all holdsTexts = true ∧
      (t.rows.filter (hasBlankLiteral s)).map Row.line = [4, 5] ∧
      ∃ d rejected, bindSchema .skipInvalidRows s t.rows = .ok (d, rejected) ∧
        List.Forall₂ (OwnReport s) (refused (dynamicRecord s) t.rows) rejected ∧
        refused (dynamicRecord s) t.rows = t.rows.filter (hasBlankLiteral s) := by
  have hrun : ((Table.parse rarityText).toOption.any fun t =>
      (build "rarity" t.header t.types t.rows).toOption.any fun s => s.columns.all holdsTexts &&
        (t.rows.filter (hasBlankLiteral s)).map Row.line == [4, 5]) = true := by
    decide +kernel
  cases hparse : Table.parse rarityText with
  | error e => rw [hparse] at hrun; cases hrun
  | ok t =>
    rw [hparse] at hrun
    simp only [Except.toOption, Option.any_some] at hrun
    cases hbuild : build "rarity" t.header t.types t.rows with
    | error e => rw [hbuild] at hrun; cases hrun
    | ok s =>
      rw [hbuild] at hrun
      simp only [Option.any_some, Bool.and_eq_true, beq_iff_eq] at hrun
      obtain ⟨d, rejected, hbind, hreports, hrefused⟩ := bind_own_rows hparse hbuild
      exact ⟨t, s, rfl, hbuild, hrun.1, hrun.2, d, rejected, hbind, hreports, hrefused hrun.1⟩

end TypedTables.Binding
