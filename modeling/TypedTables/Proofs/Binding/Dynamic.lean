/-
Dynamic records and the texts of their tables. The record of a row has one entry for each column of
the schema, under the column's name, and no other; cells of all kinds but the binary numbers are
values that the reader gives back as they are. So a table of such cells is read back from its text
record by record. Main statements: `dynamicRecord_ok` and `DynamicTable.decode_bound`.
-/
import TypedTables.Binding.Dynamic
import TypedTables.Proofs.Binding.Rows
import TypedTables.Proofs.Json.Members

namespace TypedTables.Binding

open TypedTables.Csv TypedTables.Decimal TypedTables.Json TypedTables.Schema TypedTables.Text

variable {row : Row} {column : String}

/-! ## Cells -/

theorem range_of_readCell {low high n : Int} {reason : Reason}
    (h : readCell (intInRange? low high) reason row column = .ok n) : low ≤ n ∧ n ≤ high := by
  obtain ⟨raw, -, hread⟩ := readCell_ok_iff.1 h
  obtain ⟨-, hrange⟩ := Option.filter_eq_some_iff.1 hread
  simpa using hrange

theorem intCell_range {n : Int} (h : intCell row column = .ok n) : intRange.1 ≤ n ∧ n ≤ intRange.2 :=
  range_of_readCell h

theorem longCell_range {n : Int} (h : longCell row column = .ok n) :
    longRange.1 ≤ n ∧ n ≤ longRange.2 :=
  range_of_readCell h

theorem isKept_of_long {n : Int} (hlow : longRange.1 ≤ n) (hhigh : n ≤ longRange.2) : IsKept n := by
  unfold IsKept minMagnitude maxSignificand longRange at *
  omega

theorem isKept_of_int {n : Int} (hlow : intRange.1 ≤ n) (hhigh : n ≤ intRange.2) : IsKept n := by
  unfold intRange at hlow hhigh
  refine isKept_of_long ?_ ?_ <;> unfold longRange <;> omega

/-- A column of no binary numbers. -/
structure IsExact (c : Column) : Prop where
  notFloat : c.kind ≠ .scalar .float
  notDouble : c.kind ≠ .scalar .double

instance (c : Column) : Decidable (IsExact c) :=
  decidable_of_iff (c.kind ≠ .scalar .float ∧ c.kind ≠ .scalar .double)
    ⟨fun h => ⟨h.1, h.2⟩, fun h => ⟨h.notFloat, h.notDouble⟩⟩

/-- The value of such a column's cell is read back from its text. -/
theorem reads_valueCell (depth : Nat) {c : Column} (hc : IsExact c) {v : Value}
    (h : valueCell c row = .ok v) : Reads depth .any v := by
  obtain ⟨name, field, kind⟩ := c
  cases kind with
  | scalar s =>
    cases s with
    | int =>
      obtain ⟨n, hn, rfl⟩ := exists_of_map_ok h
      exact reads_any_int depth (isKept_of_int (intCell_range hn).1 (intCell_range hn).2)
    | long =>
      obtain ⟨n, hn, rfl⟩ := exists_of_map_ok h
      exact reads_any_int depth (isKept_of_long (longCell_range hn).1 (longCell_range hn).2)
    | float => exact absurd rfl hc.notFloat
    | double => exact absurd rfl hc.notDouble
    | string =>
      obtain ⟨s, -, rfl⟩ := exists_of_map_ok h
      exact reads_any_string depth s
    | bool =>
      obtain ⟨b, -, rfl⟩ := exists_of_map_ok h
      exact reads_any_bool depth b
  | enumeration e =>
    obtain ⟨s, -, rfl⟩ := exists_of_map_ok h
    exact reads_any_string depth s

/-! ## Records -/

/-- The record of a row: its names are those of the columns, each once and in ascending order, and
under the name of a column stands the value of the column's cell. -/
structure RecordOf (columns : List Column) (row : Row) (record : Members) : Prop where
  names : (record.map Prod.fst).Perm (columns.map Column.name)
  ascending : Ascending record
  values : ∀ c ∈ columns, ∃ v, valueCell c row = .ok v ∧ member? c.name record = some v

/-- The entries that columns add to a record. -/
abbrev EntriesOf (row : Row) (columns : List Column) (entries : Members) : Prop :=
  List.Forall₂ (fun c m => c.name = m.1 ∧ valueCell c row = .ok m.2) columns entries

theorem EntriesOf.names {columns : List Column} {entries : Members} (h : EntriesOf row columns entries) :
    entries.map Prod.fst = columns.map Column.name := by
  induction h with
  | nil => rfl
  | cons hc _ ih => rw [List.map_cons, List.map_cons, ← hc.1, ih]

/-- Columns of new names each add an entry. -/
theorem recordFrom_ok : ∀ {columns : List Column} {found record : Members},
    recordFrom row found columns = .ok record → Ascending found →
    (found.map Prod.fst ++ columns.map Column.name).Nodup →
      Ascending record ∧ ∃ entries, EntriesOf row columns entries ∧ record.Perm (found ++ entries)
  | [], found, record, h, hfound, _ => by
    cases h
    exact ⟨hfound, [], .nil, by rw [List.append_nil]⟩
  | c :: columns, found, record, h, hfound, hnames => by
    rw [recordFrom] at h
    split at h
    · cases h
    · rename_i v hv
      rw [List.map_cons] at hnames
      have hmiddle := List.nodup_cons.1 (List.perm_middle.nodup_iff.1 hnames)
      have hadded : (insertMember c.name v found).Perm ((c.name, v) :: found) :=
        insertMember_perm fun hmem => hmiddle.1 (List.mem_append_left _ hmem)
      have hnodup : ((insertMember c.name v found).map Prod.fst ++ columns.map Column.name).Nodup :=
        ((hadded.map Prod.fst).append_right _).nodup_iff.2 (List.nodup_cons.2 hmiddle)
      obtain ⟨hascending, entries, hentries, hperm⟩ := recordFrom_ok h hfound.insertMember hnodup
      refine ⟨hascending, (c.name, v) :: entries, .cons ⟨rfl, hv⟩ hentries, ?_⟩
      calc
        List.Perm record (insertMember c.name v found ++ entries) := hperm
        List.Perm _ ((c.name, v) :: (found ++ entries)) := hadded.append_right entries
        List.Perm _ (found ++ (c.name, v) :: entries) := List.perm_middle.symm

/-- A record that is made has the entries of the columns and no other. -/
theorem dynamicRecord_ok {s : TableSchema} {record : Members}
    (hnames : (s.columns.map Column.name).Nodup) (h : dynamicRecord s row = .ok record) :
    RecordOf s.columns row record := by
  obtain ⟨hascending, entries, hentries, hperm⟩ := recordFrom_ok h Ascending.nil (by simpa using hnames)
  rw [List.nil_append] at hperm
  refine ⟨hentries.names ▸ hperm.map Prod.fst, hascending, ?_⟩
  intro c hc
  obtain ⟨⟨name, v⟩, hmem, rfl, hv⟩ := exists_mem_of_forall₂ hentries hc
  exact ⟨v, hv, find?_of_mem hascending.nodup (hperm.mem_iff.2 hmem)⟩

/-- Whatever names the columns have, the names of a record ascend and its values are those of cells. -/
theorem recordFrom_cells : ∀ {columns : List Column} {found record : Members},
    recordFrom row found columns = .ok record → Ascending found →
      Ascending record ∧ ∀ m ∈ record, m ∈ found ∨ ∃ c ∈ columns, valueCell c row = .ok m.2
  | [], found, record, h, hfound => by
    cases h
    exact ⟨hfound, fun m hm => .inl hm⟩
  | c :: columns, found, record, h, hfound => by
    rw [recordFrom] at h
    split at h
    · cases h
    · rename_i v hv
      obtain ⟨hascending, hcells⟩ := recordFrom_cells h hfound.insertMember
      refine ⟨hascending, ?_⟩
      intro m hm
      rcases hcells m hm with hmem | ⟨c', hc', hcell⟩
      · rcases mem_insertMember hmem with rfl | hmem
        · exact .inr ⟨c, List.mem_cons_self .., hv⟩
        · exact .inl hmem
      · exact .inr ⟨c', List.mem_cons_of_mem _ hc', hcell⟩

/-! ## Tables -/

/-- The records of a bound table are those of the rows that make one. -/
theorem bindSchema_ok {policy : Policy} {s : TableSchema} {rows : List Row} {t : DynamicTable}
    {rejected : List Rejection} (h : bindSchema policy s rows = .ok (t, rejected)) :
    List.Forall₂ (fun row record => dynamicRecord s row = .ok record)
      (accepted (dynamicRecord s) rows) t.records := by
  obtain ⟨b, hb, hbound⟩ := exists_of_map_ok h
  cases hbound
  exact bindRows_ok hb

namespace DynamicTable

theorem ofValue?_toValue (t : DynamicTable) : ofValue? t.toValue = some t := by
  rw [toValue, ofValue?, mapM_map_some (f := members?) fun _ => rfl]
  rfl

/-- A table is read back from its text if the values in it are. -/
theorem decode_compact {t : DynamicTable}
    (h : ∀ record ∈ t.records, Ascending record ∧ ∀ m ∈ record, Reads 124 .any m.2) :
    DynamicTable.decode (Utf8.ofText t.toValue.compact) = .ok t := by
  have hreads : Reads maxDepth shape t.toValue := by
    refine reads_record (by decide) (.cons ⟨rfl, reads_list ?_⟩ .nil)
    intro v hv
    obtain ⟨record, hrecord, rfl⟩ := List.mem_map.1 hv
    obtain ⟨hascending, hvalues⟩ := h record hrecord
    exact reads_members hascending hvalues
  have hdecode := decode_written hreads .compact (.inl rfl)
  rw [List.append_nil] at hdecode
  simp only [DynamicTable.decode, Value.compact, Value.written] at hdecode ⊢
  simp only [hdecode, bind, Except.bind, ofValue?_toValue, pure, Except.pure]

/-- A table bound by a schema without binary numbers is read back from its text. -/
theorem decode_bound {policy : Policy} {s : TableSchema} {rows : List Row} {t : DynamicTable}
    {rejected : List Rejection} (hexact : ∀ c ∈ s.columns, IsExact c)
    (h : bindSchema policy s rows = .ok (t, rejected)) :
    DynamicTable.decode (Utf8.ofText t.toValue.compact) = .ok t := by
  refine decode_compact ?_
  intro record hrecord
  obtain ⟨row, -, hrow⟩ := exists_mem_of_forall₂ (List.Forall₂.flip (bindSchema_ok h)) hrecord
  obtain ⟨hascending, hcells⟩ := recordFrom_cells hrow Ascending.nil
  refine ⟨hascending, ?_⟩
  intro m hm
  obtain hnone | ⟨c, hc, hcell⟩ := hcells m hm
  · cases hnone
  · exact reads_valueCell 124 (hexact c hc) hcell

end DynamicTable

end TypedTables.Binding
