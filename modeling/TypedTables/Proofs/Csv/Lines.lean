/-
The line that is reported for a data row against the line that the row stands on. The lines of a text
end at a line feed or at a carriage return with a line feed, and the records are the lines that hold
a character. What is reported for a record is the place where the record before it ended, so it is
too small when that record ended with a carriage return or when empty lines follow it. Main
statement: `parse_lines`, with the exact condition under which every line reported is right.
-/
import TypedTables.Csv.Table
import Mathlib.Tactic

namespace TypedTables.Csv

open TypedTables.Text

/-! ## Lines of a text -/

/-- A line of a text: its number counted from one, its characters, and whether it ends with a
carriage return before the line feed. -/
structure Line where
  number : Nat
  chars : List Char
  hasReturn : Bool

/-- The lines from line `n` on, whose first characters are in `current`, last first. -/
def linesFrom (n : Nat) : (current rest : List Char) → List Line
  | current, [] => [⟨n, current.reverse, false⟩]
  | current, '\r' :: '\n' :: rest => ⟨n, current.reverse, true⟩ :: linesFrom (n + 1) [] rest
  | current, '\n' :: rest => ⟨n, current.reverse, false⟩ :: linesFrom (n + 1) [] rest
  | current, c :: rest => linesFrom n (c :: current) rest

/-- Whether a carriage return is not followed by a line feed. -/
def hasLoneReturn : List Char → Bool
  | [] => false
  | '\r' :: '\n' :: rest => hasLoneReturn rest
  | '\r' :: _ => true
  | _ :: rest => hasLoneReturn rest

def Line.cells (l : Line) : List String := (splitCells l.chars).map String.ofList

def Line.isBlank (l : Line) : Bool := l.cells.all isBlankText

/-- A record: the line that it stands on, and that of the record before it. -/
structure Placed where
  previous : Option Line
  line : Line

/-- Lines that hold records, each with the one before it. -/
def placed (previous : Option Line) : List Line → List Placed
  | [] => []
  | l :: rest => ⟨previous, l⟩ :: placed (some l) rest

def placedRecords (text : String) : List Placed :=
  placed none ((linesFrom 1 [] (dropMark (dropMark text.toList))).filter fun l => !l.chars.isEmpty)

/-- The line behind the record before, where a line feed behind a carriage return is not read yet. -/
def reportedAfter : Option Line → Nat
  | none => 1
  | some l => if l.hasReturn then l.number else l.number + 1

def Placed.reported (r : Placed) : Nat := reportedAfter r.previous

/-- The record stands on the line right below the one before it, which ends with a line feed
alone. -/
def Placed.Follows (r : Placed) : Prop :=
  match r.previous with
  | none => r.line.number = 1
  | some l => l.hasReturn = false ∧ r.line.number = l.number + 1

/-! ## Records stand on lines -/

theorem recordsFrom_eq_placed (n : Nat) (current rest : List Char) (previous : Option Line)
    (h : hasLoneReturn rest = false) :
    recordsFrom (reportedAfter previous) n current rest =
      (placed previous ((linesFrom n current rest).filter fun l => !l.chars.isEmpty)).map
        fun r => (r.reported, r.line.chars) := by
  fun_induction linesFrom n current rest generalizing previous with
  | case1 n current =>
    cases current <;> simp [recordsFrom, placed, Placed.reported]
  | case2 n current rest ih =>
    have hrest : hasLoneReturn rest = false := by simpa [hasLoneReturn] using h
    cases current with
    | nil => simpa [recordsFrom, isTerminator, nextLine] using ih previous hrest
    | cons p ps =>
      -- the record ends at the carriage return, before the line is counted
      have hnext := ih (some ⟨n, (p :: ps).reverse, true⟩) hrest
      simpa [recordsFrom, isTerminator, nextLine, placed, Placed.reported, reportedAfter] using hnext
  | case3 n current rest ih =>
    have hrest : hasLoneReturn rest = false := by simpa [hasLoneReturn] using h
    cases current with
    | nil => simpa [recordsFrom, isTerminator, nextLine] using ih previous hrest
    | cons p ps =>
      have hnext := ih (some ⟨n, (p :: ps).reverse, false⟩) hrest
      simpa [recordsFrom, isTerminator, nextLine, placed, Placed.reported, reportedAfter] using hnext
  | case4 n current c rest hpair hfeed ih =>
    -- a carriage return here would be a lone one
    have hc : c ≠ '\r' := by
      rintro rfl
      rw [hasLoneReturn] at h
      · cases h
      · exact fun rest' hr => hpair rest' rfl hr
    have hrest : hasLoneReturn rest = false := by
      unfold hasLoneReturn at h
      split at h <;> simp_all
    have hterm : isTerminator c = false := by simp [isTerminator, hc, show c ≠ '\n' from hfeed]
    have hstep : recordsFrom (reportedAfter previous) n current (c :: rest) =
        recordsFrom (reportedAfter previous) n (c :: current) rest := by
      cases current <;> simp [recordsFrom, hterm]
    rw [hstep]
    exact ih previous hrest

theorem hasLoneReturn_dropMark (cs : List Char) : hasLoneReturn (dropMark cs) = hasLoneReturn cs := by
  unfold dropMark
  split
  · simp [hasLoneReturn]
  · rfl

theorem exists_mark (cs : List Char) : ∃ mark, cs = mark ++ dropMark cs ∧ mark.count '\n' = 0 := by
  unfold dropMark
  split
  · exact ⟨['\uFEFF'], rfl, by decide⟩
  · exact ⟨[], rfl, rfl⟩

theorem records_eq_placed {text : String} (h : hasLoneReturn text.toList = false) :
    records text = (placedRecords text).map fun r => ⟨r.reported, r.line.cells⟩ := by
  have hlone : hasLoneReturn (dropMark (dropMark text.toList)) = false := by
    rw [hasLoneReturn_dropMark, hasLoneReturn_dropMark, h]
  have hplaced : recordsFrom 1 1 [] (dropMark (dropMark text.toList)) =
      (placedRecords text).map fun r => (r.reported, r.line.chars) :=
    recordsFrom_eq_placed 1 [] _ none hlone
  rw [records, hplaced, List.map_map]
  rfl

/-! ## Numbers of lines -/

/-- The number of a line counts the line feeds before it, from `n` on. -/
theorem linesFrom_number (n : Nat) (current rest : List Char) (hcur : '\n' ∉ current) :
    ∀ l ∈ linesFrom n current rest, ∃ before after,
      current.reverse ++ rest = before ++ l.chars ++ after ∧ l.number = n + before.count '\n' := by
  have hcount {cs : List Char} (h : '\n' ∉ cs) : cs.reverse.count '\n' = 0 := by
    rw [List.count_reverse, List.count_eq_zero]; exact h
  fun_induction linesFrom n current rest with
  | case1 n current =>
    intro l hl
    cases List.mem_singleton.1 hl
    exact ⟨[], [], by simp, by simp⟩
  | case2 n current rest ih =>
    intro l hl
    rcases List.mem_cons.1 hl with rfl | hl
    · exact ⟨[], '\r' :: '\n' :: rest, by simp, by simp⟩
    · obtain ⟨before, after, heq, hnum⟩ := ih (by simp) l hl
      refine ⟨current.reverse ++ '\r' :: '\n' :: before, after, by simpa using heq, ?_⟩
      rw [hnum, List.count_append, hcount hcur]
      simp; omega
  | case3 n current rest ih =>
    intro l hl
    rcases List.mem_cons.1 hl with rfl | hl
    · exact ⟨[], '\n' :: rest, by simp, by simp⟩
    · obtain ⟨before, after, heq, hnum⟩ := ih (by simp) l hl
      refine ⟨current.reverse ++ '\n' :: before, after, by simpa using heq, ?_⟩
      rw [hnum, List.count_append, hcount hcur]
      simp; omega
  | case4 n current c rest hpair hfeed ih =>
    intro l hl
    have hc : '\n' ∉ c :: current := by
      rw [List.mem_cons, not_or]
      exact ⟨fun h => hfeed h.symm, hcur⟩
    obtain ⟨before, after, heq, hnum⟩ := ih hc l hl
    exact ⟨before, after, by simpa using heq, hnum⟩

theorem linesFrom_sorted (n : Nat) (current rest : List Char) :
    (linesFrom n current rest).Pairwise (fun a b => a.number < b.number) ∧
      ∀ l ∈ linesFrom n current rest, n ≤ l.number := by
  fun_induction linesFrom n current rest with
  | case1 n current => simp
  | case2 n current rest ih | case3 n current rest ih =>
    obtain ⟨hsorted, hle⟩ := ih
    constructor
    · refine List.pairwise_cons.2 ⟨?_, hsorted⟩
      intro l hl
      have := hle l hl
      simp only; omega
    · intro l hl
      rcases List.mem_cons.1 hl with rfl | hl
      · exact le_refl _
      · have := hle l hl; omega
  | case4 n current c rest hpair hfeed ih => exact ih

theorem lt_of_mem_placed : ∀ {lines : List Line} {previous : Option Line},
    lines.Pairwise (fun a b => a.number < b.number) →
    (∀ l ∈ lines, 1 ≤ l.number ∧ ∀ p ∈ previous, p.number < l.number) →
    ∀ r ∈ placed previous lines, 1 ≤ r.line.number ∧ ∀ p ∈ r.previous, p.number < r.line.number
  | [], _, _, _, r, hr => by cases hr
  | l :: lines, previous, hs, hp, r, hr => by
    rcases List.mem_cons.1 hr with rfl | hr
    · exact hp l (List.mem_cons_self ..)
    · obtain ⟨hl, hs⟩ := List.pairwise_cons.1 hs
      refine lt_of_mem_placed hs ?_ r hr
      intro k hk
      refine ⟨(hp k (List.mem_cons_of_mem _ hk)).1, ?_⟩
      rintro p ⟨⟩
      exact hl k hk

theorem placed_line_mem : ∀ {lines : List Line} {previous : Option Line},
    ∀ r ∈ placed previous lines, r.line ∈ lines
  | l :: lines, previous, r, hr => by
    rcases List.mem_cons.1 hr with rfl | hr
    · exact List.mem_cons_self ..
    · exact List.mem_cons_of_mem _ (placed_line_mem r hr)

/-- What is reported is never below the line of the record, and right iff the record follows the one
before it directly. -/
theorem Placed.reported_spec {r : Placed} (h1 : 1 ≤ r.line.number)
    (hp : ∀ p ∈ r.previous, p.number < r.line.number) :
    r.reported ≤ r.line.number ∧ (r.reported = r.line.number ↔ r.Follows) := by
  obtain ⟨previous, line⟩ := r
  cases previous with
  | none =>
    simp only [Placed.reported, reportedAfter, Placed.Follows]
    exact ⟨h1, eq_comm⟩
  | some p =>
    have hlt : p.number < line.number := hp p rfl
    cases hreturn : p.hasReturn <;>
      simp only [Placed.reported, reportedAfter, Placed.Follows, hreturn] <;>
      constructor <;> simp <;> omega

/-! ## Tables -/

/-- The records of the data rows: those that are not blank, behind the names and the types. -/
def dataRecords (text : String) : List Placed :=
  ((placedRecords text).filter fun r => !r.line.isBlank).drop 2

/-- The data rows that records make when `lineOf` gives their lines. -/
def rowsAt (header : List String) (lineOf : Placed → Nat) (data : List Placed) : List Row :=
  data.filterMap fun r => (rowOfRecord header ⟨lineOf r, r.line.cells⟩).toOption

/-- The reports of the records that are no data rows when `lineOf` gives their lines. -/
def rejectedAt (header : List String) (lineOf : Placed → Nat) (data : List Placed) :
    List ShapeError :=
  data.filterMap fun r => match rowOfRecord header ⟨lineOf r, r.line.cells⟩ with
    | .ok _ => none
    | .error e => some e

/-- Every record makes a row or a report with its line, so equal results come from equal lines. -/
theorem rowsAt_eq_iff (header : List String) (f g : Placed → Nat) : ∀ data : List Placed,
    (rowsAt header f data = rowsAt header g data ∧ rejectedAt header f data = rejectedAt header g data) ↔
      ∀ r ∈ data, f r = g r
  | [] => by simp [rowsAt, rejectedAt]
  | r :: data => by
    have ih := rowsAt_eq_iff header f g data
    simp only [rowsAt, rejectedAt] at ih
    rw [List.forall_mem_cons, ← ih]
    by_cases hw : r.line.cells.length = header.length
    · simp [rowsAt, rejectedAt, rowOfRecord, hw, Except.toOption, Row.ofCells, and_assoc]
    · simp [rowsAt, rejectedAt, rowOfRecord, hw, Except.toOption, and_left_comm]

theorem placedRecords_spec {text : String} {r : Placed} (hr : r ∈ placedRecords text) :
    (r.reported ≤ r.line.number ∧ (r.reported = r.line.number ↔ r.Follows)) ∧
      ∃ before after, text.toList = before ++ r.line.chars ++ after ∧
        r.line.number = 1 + before.count '\n' := by
  have hlines := linesFrom_sorted 1 [] (dropMark (dropMark text.toList))
  have hline := List.mem_of_mem_filter (placed_line_mem r hr)
  constructor
  · obtain ⟨h1, hp⟩ := lt_of_mem_placed (hlines.1.filter _)
      (fun l hl => ⟨hlines.2 l (List.mem_of_mem_filter hl), by simp⟩) r hr
    exact Placed.reported_spec h1 hp
  · obtain ⟨before, after, heq, hnum⟩ := linesFrom_number 1 [] _ (by simp) r.line hline
    obtain ⟨mark, hmark, hcount⟩ := exists_mark text.toList
    obtain ⟨mark', hmark', hcount'⟩ := exists_mark (dropMark text.toList)
    refine ⟨mark ++ mark' ++ before, after, ?_, ?_⟩
    · rw [List.append_assoc, List.append_assoc, List.append_assoc, ← List.append_assoc before, ← heq]
      simp [← hmark', ← hmark]
    · rw [hnum, List.count_append, List.count_append, hcount, hcount']; simp

theorem parse_cases {text : String} {t : Table} (h : Table.parse text = .ok t) :
    ∃ a b data, ((records text).filter fun r => !r.isBlank) = a :: b :: data ∧
      t.rows = (data.map (rowOfRecord t.header)).filterMap Except.toOption ∧
      t.rejected = (data.map (rowOfRecord t.header)).filterMap fun r => match r with
        | .ok _ => none
        | .error e => some e := by
  have hfilled : ∀ r ∈ (records text).filter fun r => !r.isBlank, r.isBlank = false :=
    Record.isBlank_of_mem_filter
  unfold Table.parse at h
  rcases hkept : (records text).filter fun r => !r.isBlank with _ | ⟨a, _ | ⟨b, data⟩⟩
  · rw [hkept] at h; cases h
  · rw [hkept] at h hfilled
    rw [Table.ofRecords_singleton (hfilled a (by simp))] at h
    cases h
  · rw [hkept] at h hfilled
    rw [Table.ofRecords_cons_cons (hfilled a (by simp)) (hfilled b (by simp)), Table.ofRows] at h
    split_ifs at h
    cases h
    exact ⟨a, b, data, hkept, rfl, rfl⟩

/-- In a text without lone carriage returns that makes a table, a data row is reported at the line
behind the end of the record before it. Every row and every report has the line that it stands on,
one more than the line feeds before it, exactly when each of them follows the record before it on
the next line and that record ends with a line feed alone. -/
theorem parse_lines {text : String} {t : Table} (hlone : hasLoneReturn text.toList = false)
    (h : Table.parse text = .ok t) :
    t.rows = rowsAt t.header Placed.reported (dataRecords text) ∧
      t.rejected = rejectedAt t.header Placed.reported (dataRecords text) ∧
      (t.rows = rowsAt t.header (fun r => r.line.number) (dataRecords text) ∧
          t.rejected = rejectedAt t.header (fun r => r.line.number) (dataRecords text) ↔
        ∀ r ∈ dataRecords text, r.Follows) ∧
      ∀ r ∈ dataRecords text, r.reported ≤ r.line.number ∧
        ∃ before after, text.toList = before ++ r.line.chars ++ after ∧
          r.line.number = 1 + before.count '\n' := by
  obtain ⟨a, b, data, hrecords, hrows, hrejected⟩ := parse_cases h
  have hdata : data = (dataRecords text).map fun r => ⟨r.reported, r.line.cells⟩ := by
    -- a record is blank for the parser exactly when its line is
    have hfilter : ((records text).filter fun r => !r.isBlank) =
        ((placedRecords text).filter fun r => !r.line.isBlank).map
          fun r => ⟨r.reported, r.line.cells⟩ := by
      rw [records_eq_placed hlone, List.filter_map]; rfl
    rw [dataRecords, List.map_drop, ← hfilter, hrecords]; rfl
  have hmem : ∀ r ∈ dataRecords text, r ∈ placedRecords text :=
    fun r hr => List.mem_of_mem_filter (List.mem_of_mem_drop hr)
  have hreported : t.rows = rowsAt t.header Placed.reported (dataRecords text) := by
    rw [hrows, hdata, List.map_map, List.filterMap_map]; rfl
  have hreported' : t.rejected = rejectedAt t.header Placed.reported (dataRecords text) := by
    rw [hrejected, hdata, List.map_map, List.filterMap_map]; rfl
  refine ⟨hreported, hreported', ?_, ?_⟩
  · rw [hreported, hreported', rowsAt_eq_iff]
    exact forall₂_congr fun r hr => (placedRecords_spec (hmem r hr)).1.2
  · intro r hr
    obtain ⟨⟨hle, -⟩, hplace⟩ := placedRecords_spec (hmem r hr)
    exact ⟨hle, hplace⟩

/-- Data on the lines 3, 4, 5, 7 and 8, of which line 4 ends with a carriage return and line 6 is
empty: the records behind these two are reported a line early. -/
theorem parse_lines_mixed :
    hasLoneReturn "ID\nint\n1\n2\r\n3\n\n4\n5,6".toList = false ∧
      ∃ t, Table.parse "ID\nint\n1\n2\r\n3\n\n4\n5,6" = .ok t ∧
        t.rows.map Row.line = [3, 4, 4, 6] ∧ t.rejected = [⟨8, 1, 2⟩] ∧
        (dataRecords "ID\nint\n1\n2\r\n3\n\n4\n5,6").map (fun r => r.line.number) = [3, 4, 5, 7, 8] ∧
        t.rows = rowsAt t.header Placed.reported (dataRecords "ID\nint\n1\n2\r\n3\n\n4\n5,6") :=
  ⟨by decide, _, by rfl, by decide, by decide, by decide +kernel, (parse_lines (by decide) (by rfl)).1⟩

/-- In a text whose lines all end with a carriage return and a line feed, the first data row stands
on line 3 and is reported at line 2. -/
theorem return_line_reported_early :
    hasLoneReturn "ID\r\nint\r\n1\r\n".toList = false ∧
      ∃ t, Table.parse "ID\r\nint\r\n1\r\n" = .ok t ∧ t.rows.map Row.line = [2] ∧
        (dataRecords "ID\r\nint\r\n1\r\n").map (fun r => r.line.number) = [3] ∧
        t.rows ≠ rowsAt t.header (fun r => r.line.number) (dataRecords "ID\r\nint\r\n1\r\n") :=
  ⟨by decide, _, by rfl, by decide, by decide +kernel, by decide +kernel⟩

end TypedTables.Csv
