/-
The order of literals. The texts of an enum stand in the order of the rows that show them first: a text is
there exactly when it is not empty and some row shows it, none is there twice, and one stands before
another exactly when the first row with it comes before the first row with the other. Rows that are too
short for the column count for nothing. Main statement: `build_firstAppearances`.
-/
import Mathlib.Data.List.Basic
import Mathlib.Data.List.Nodup
import TypedTables.Proofs.Schema.Literals

namespace TypedTables.Schema

open TypedTables.Csv TypedTables.Naming TypedTables.Text

variable {row : Row} {rows : List Row} {k : Nat} {text other : String}

/-! ## First rows -/

theorem shows_iff : Shows row k text ↔ (row.valueAt? k).map trim = some text := by
  simp [Shows]

instance (row : Row) (k : Nat) (text : String) : Decidable (Shows row k text) :=
  decidable_of_iff _ shows_iff.symm

/-- A row shows at most one text in a column. -/
theorem Shows.unique (h : Shows row k text) (h' : Shows row k other) : text = other := by
  rw [shows_iff] at h h'
  exact Option.some.inj (h.symm.trans h')

/-- The position of the first row that shows a text in a column, or the number of rows if none does. -/
def firstRow (rows : List Row) (k : Nat) (text : String) : Nat :=
  rows.findIdx fun row => decide (Shows row k text)

theorem firstRow_cons_of_shows (rows : List Row) (h : Shows row k text) :
    firstRow (row :: rows) k text = 0 := by
  simp [firstRow, List.findIdx_cons, h]

theorem firstRow_cons_of_not_shows (rows : List Row) (h : ¬ Shows row k text) :
    firstRow (row :: rows) k text = firstRow rows k text + 1 := by
  simp [firstRow, List.findIdx_cons, h]

/-! ## Texts of a column -/

theorem columnTexts_cons_of_shows (rows : List Row) (h : Shows row k text) (hne : text ≠ "") :
    columnTexts k (row :: rows) = text :: columnTexts k rows := by
  rw [shows_iff] at h
  simp [columnTexts, h, hne]

theorem columnTexts_cons_of_blank (rows : List Row) (h : ∀ text ≠ "", ¬ Shows row k text) :
    columnTexts k (row :: rows) = columnTexts k rows := by
  unfold columnTexts
  rw [List.filterMap_cons]
  cases hshown : (row.valueAt? k).map trim with
  | none => rfl
  | some text =>
    obtain rfl : text = "" := by
      by_contra hne
      exact h text hne (shows_iff.2 hshown)
    rfl

/-- A row with no cell in a column adds no text to it. -/
theorem columnTexts_filter_size (k : Nat) (rows : List Row) :
    columnTexts k (rows.filter fun row => decide (k < row.size)) = columnTexts k rows := by
  unfold columnTexts
  rw [List.filterMap_filter]
  congr 2
  funext row
  by_cases h : k < row.size
  · simp [h]
  · simp [h, Row.valueAt?_eq_none (Nat.not_lt.1 h)]

/-! ## Literals -/

/-- Texts keep their order behind a row that shows none of them. -/
theorem pairwise_firstRow_cons {texts : List String}
    (h : texts.Pairwise fun t u => firstRow rows k t < firstRow rows k u)
    (hnot : ∀ t ∈ texts, ¬ Shows row k t) :
    texts.Pairwise fun t u => firstRow (row :: rows) k t < firstRow (row :: rows) k u := by
  refine h.imp_of_mem fun ht hu hlt => ?_
  rw [firstRow_cons_of_not_shows rows (hnot _ ht), firstRow_cons_of_not_shows rows (hnot _ hu)]
  omega

/-- The literals of a column stand in the order of the rows that show them first. In the induction over
the rows the texts seen before are left out, so the text of the first row is that of no later literal. -/
theorem pairwise_literalsFrom (k : Nat) : ∀ (rows : List Row) (seen taken : List String),
    ((literalsFrom seen taken (columnTexts k rows)).map Literal.text).Pairwise
      fun t u => firstRow rows k t < firstRow rows k u
  | [], _, _ => .nil
  | row :: rows, seen, taken => by
    have hrest := pairwise_literalsFrom k rows
    by_cases hshown : ∃ text ≠ "", Shows row k text
    · obtain ⟨text, hne, htext⟩ := hshown
      have hold : ∀ (seen taken : List String), text ∈ seen →
          ∀ t ∈ (literalsFrom seen taken (columnTexts k rows)).map Literal.text, ¬ Shows row k t := by
        intro seen taken hseen t ht hrow
        apply (mem_texts_literalsFrom.1 ht).2
        rwa [hrow.unique htext]
      rw [columnTexts_cons_of_shows rows htext hne, literalsFrom]
      split
      · rename_i hseen
        exact pairwise_firstRow_cons (hrest _ _) (hold _ _ (by simpa using hseen))
      · have hnew := hold (text :: seen) (claim (typeName text "Literal") "" taken).2 (by simp)
        rw [List.map_cons, List.pairwise_cons]
        refine ⟨?_, pairwise_firstRow_cons (hrest _ _) hnew⟩
        intro t ht
        rw [firstRow_cons_of_shows rows htext, firstRow_cons_of_not_shows rows (hnew t ht)]
        omega
    · push Not at hshown
      rw [columnTexts_cons_of_blank rows hshown]
      apply pairwise_firstRow_cons (hrest _ _)
      intro t ht
      exact hshown t (mem_columnTexts.1 (mem_texts_literalsFrom.1 ht).1).1

/-- In a list that ascends by some measure, one member stands before another when its measure is less. -/
theorem idxOf_lt_idxOf_iff {α : Type} [BEq α] [LawfulBEq α] {f : α → Nat} {l : List α} {a b : α}
    (h : l.Pairwise fun a b => f a < f b) (ha : a ∈ l) (hb : b ∈ l) :
    l.idxOf a < l.idxOf b ↔ f a < f b := by
  have hlt : ∀ {a b : α}, a ∈ l → b ∈ l → l.idxOf a < l.idxOf b → f a < f b := by
    intro a b ha hb hab
    have hpair := List.pairwise_iff_getElem.1 h _ _ (List.idxOf_lt_length_of_mem ha)
      (List.idxOf_lt_length_of_mem hb) hab
    rwa [List.getElem_idxOf, List.getElem_idxOf] at hpair
  constructor
  · exact hlt ha hb
  · intro hab
    rcases Nat.lt_trichotomy (l.idxOf a) (l.idxOf b) with hidx | hidx | hidx
    · exact hidx
    · rw [(List.idxOf_inj ha).1 hidx] at hab
      omega
    · have := hlt hb ha hidx
      omega

/-! ## Schemas -/

/-- Texts are those that rows show in a column, blank cells apart, each where it appears first. -/
structure FirstAppearances (rows : List Row) (k : Nat) (texts : List String) : Prop where
  mem : ∀ t, t ∈ texts ↔ t ≠ "" ∧ ∃ row ∈ rows, Shows row k t
  nodup : texts.Nodup
  before : ∀ t ∈ texts, ∀ u ∈ texts,
    texts.idxOf t < texts.idxOf u ↔ firstRow rows k t < firstRow rows k u

theorem firstAppearances_literals (rows : List Row) (k : Nat) :
    FirstAppearances rows k ((literals k rows).map Literal.text) := by
  have hpairwise := pairwise_literalsFrom k rows [] []
  refine ⟨fun t => mem_texts_literals, ?_, fun t ht u hu => idxOf_lt_idxOf_iff hpairwise ht hu⟩
  refine hpairwise.imp ?_
  rintro t u h rfl
  omega

/-- The texts of an enum column in a schema that is built from rows are the first appearances of what the
rows show at the position of the column. Rows too short for the column make no difference. -/
theorem build_firstAppearances {stem : String} {header types : List String} {s : TableSchema}
    {c : Column} {e : EnumType} (h : build stem header types rows = .ok s)
    (hc : s.columns[k]? = some c) (he : c.kind = .enumeration e) :
    FirstAppearances rows k e.texts ∧
      e.literals = literals k (rows.filter fun row => decide (k < row.size)) := by
  obtain ⟨names, columns, hb⟩ := build_cases h
  rw [hb.eq] at hc
  have hliterals : e.literals = literals k rows := by
    rw [literals_columnsFrom hb.columnsMade hc he, Nat.zero_add]
  constructor
  · rw [EnumType.texts, hliterals]
    exact firstAppearances_literals rows k
  · rw [hliterals, literals, literals, columnTexts_filter_size]

/-- Rows with blanks of all sorts around their grades, one without a grade and one with a blank one. -/
def gradeRows : List Row :=
  [["1", " B "], ["2"], ["3", "\u2003"], ["4", "\u00A0a\u3000"], ["5", "B"], ["6", "A"], ["7", "\ta"]].map
    (Row.ofCells 3 ["ID", "Grade"])

theorem build_firstAppearances_grades : ∃ s c e,
    build "grades" ["ID", "Grade"] ["int", "enum"] gradeRows = .ok s ∧ s.columns[1]? = some c ∧
      c.kind = .enumeration e ∧ e.texts = ["B", "a", "A"] ∧ FirstAppearances gradeRows 1 e.texts ∧
      e.literals = literals 1 (gradeRows.filter fun row => decide (1 < row.size)) := by
  have hbuild : build "grades" ["ID", "Grade"] ["int", "enum"] gradeRows = .ok
      ⟨"Grades", "grades", "GradesRecord", [⟨"ID", "id", .scalar .int⟩,
        ⟨"Grade", "grade", .enumeration ⟨"Grade", [⟨"B", "B"⟩, ⟨"a", "A"⟩, ⟨"A", "A2"⟩]⟩⟩], true⟩ := by
    decide +kernel
  exact ⟨_, _, _, hbuild, rfl, rfl, rfl, build_firstAppearances hbuild rfl rfl⟩

end TypedTables.Schema
