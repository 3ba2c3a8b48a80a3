/-
Integer cells. The first cell of a column is read as an integer exactly when it holds one in decimal,
with any blanks around it, and the integer lies in the range of the column's type. Any other cell is
reported as it stands, and a missing one with an empty text. Main statement: `integerCells_exact`.
-/
import Mathlib.Data.List.TakeWhile
import TypedTables.Binding.Coercion
import TypedTables.Proofs.Decimal.Integers
import TypedTables.Proofs.Entries

/-! ## Trimming -/

namespace TypedTables.Text

theorem dropWhile_of_solid {cs : List Char} (h : ∀ c ∈ cs, isBlank c = false) :
    cs.dropWhile isBlank = cs := by
  cases cs with
  | nil => rfl
  | cons c cs => simp [h c (List.mem_cons_self ..)]

theorem trimEnd_of_solid {cs after : List Char} (hsolid : ∀ c ∈ cs, isBlank c = false)
    (hafter : ∀ c ∈ after, isBlank c = true) : trimEnd (cs ++ after) = cs := by
  unfold trimEnd
  rw [List.reverse_append, List.dropWhile_append_of_pos (by simpa using hafter),
    dropWhile_of_solid (by simpa using hsolid), List.reverse_reverse]

/-- Blanks around a text without any are all that trimming drops. -/
theorem trimChars_of_solid {before cs after : List Char} (hbefore : ∀ c ∈ before, isBlank c = true)
    (hsolid : ∀ c ∈ cs, isBlank c = false) (hafter : ∀ c ∈ after, isBlank c = true) :
    trimChars (before ++ cs ++ after) = cs := by
  unfold trimChars
  rw [List.append_assoc, List.dropWhile_append_of_pos hbefore]
  cases cs with
  | nil => rw [List.nil_append, List.dropWhile_eq_nil_iff.2 hafter, trimEnd_nil]
  | cons c cs =>
    rw [List.cons_append, List.dropWhile_cons_of_neg (by simp [hsolid c (List.mem_cons_self ..)])]
    exact trimEnd_of_solid hsolid hafter

/-- Trimming drops blanks only. -/
theorem exists_blanks (cs : List Char) : ∃ before after, cs = before ++ trimChars cs ++ after ∧
    ∀ c ∈ before ++ after, isBlank c = true := by
  refine ⟨cs.takeWhile isBlank, ((cs.dropWhile isBlank).reverse.takeWhile isBlank).reverse, ?_, ?_⟩
  · have hend : cs.dropWhile isBlank =
        trimChars cs ++ ((cs.dropWhile isBlank).reverse.takeWhile isBlank).reverse := by
      unfold trimChars trimEnd
      rw [← List.reverse_append, List.takeWhile_append_dropWhile, List.reverse_reverse]
    rw [List.append_assoc, ← hend, List.takeWhile_append_dropWhile]
  · intro c hc
    rw [List.mem_append, List.mem_reverse] at hc
    rcases hc with hc | hc <;> exact List.mem_takeWhile_imp hc

end TypedTables.Text

namespace TypedTables.Binding

open TypedTables.Csv TypedTables.Decimal TypedTables.Text

variable {row : Row} {column raw : String} {n : Int}

/-! ## What a cell holds -/

/-- A text holds an integer when this is all that is in it but blanks at its ends. -/
def Holds (raw : String) (n : Int) : Prop :=
  ∃ before cs after, raw.toList = before ++ cs ++ after ∧ (∀ c ∈ before ++ after, isBlank c = true) ∧
    Denotes cs n

/-- The cell of a column is the first one under its name. -/
def IsCell (row : Row) (column raw : String) : Prop :=
  ∃ front rest, row.cells = front ++ (column, raw) :: rest ∧ column ∉ front.map Prod.fst

theorem get?_eq_some_iff : row.get? column = some raw ↔ IsCell row column raw := by
  unfold Row.get? IsCell
  rw [Option.map_eq_some_iff]
  constructor
  · rintro ⟨⟨name, _⟩, hfind, rfl⟩
    obtain ⟨hname, front, rest, hcells, hfront⟩ := List.find?_eq_some_iff_append.1 hfind
    obtain rfl : name = column := by simpa using hname
    refine ⟨front, rest, hcells, ?_⟩
    intro hmem
    obtain ⟨cell, hcell, hcolumn⟩ := List.mem_map.1 hmem
    simpa [hcolumn] using hfront cell hcell
  · rintro ⟨front, rest, hcells, hfront⟩
    refine ⟨(column, raw), List.find?_eq_some_iff_append.2 ⟨by simp, front, rest, hcells, ?_⟩, rfl⟩
    intro cell hcell
    have hne : cell.1 ≠ column := by
      rintro rfl
      exact hfront (List.mem_map_of_mem hcell)
    simpa using hne

theorem isBlank_of_denotes {cs : List Char} (h : Denotes cs n) : ∀ c ∈ cs, isBlank c = false := by
  have hdigit : ∀ {ds : List Char}, IsDigits ds → ∀ d ∈ ds, isBlank d = false := by
    intro ds hds d hd
    obtain ⟨hlow, hhigh⟩ := hds.digits d hd
    have hlow : 48 ≤ d.toNat := hlow
    have hhigh : d.toNat ≤ 57 := hhigh
    simp only [isBlank, blankRanges, CharRanges.contains, List.any_cons, List.any_nil, Bool.or_false,
      Bool.or_eq_false_iff, Bool.and_eq_false_iff, decide_eq_false_iff_not]
    omega
  cases h with
  | unsigned h => exact hdigit h
  | plus h => exact List.forall_mem_cons.2 ⟨by decide, hdigit h⟩
  | minus h => exact List.forall_mem_cons.2 ⟨by decide, hdigit h⟩

theorem holds_iff : Holds raw n ↔ readInt? (trimChars raw.toList) = some n := by
  rw [readInt?_eq_some_iff]
  constructor
  · rintro ⟨before, cs, after, htext, hblank, hdenotes⟩
    obtain ⟨hbefore, hafter⟩ := List.forall_mem_append.1 hblank
    rwa [htext, trimChars_of_solid hbefore (isBlank_of_denotes hdenotes) hafter]
  · intro h
    obtain ⟨before, after, htext, hblank⟩ := exists_blanks raw.toList
    exact ⟨before, _, after, htext, hblank, h⟩

/-! ## Reading cells -/

/-- Cells are read as the integers of a range: exactly those that hold one are, a missing cell and any
other one are refused with the reason and the text that was found, and what an integer of the range is
written as is read as that integer, whatever blanks stand around it. -/
structure ReadsIntegers (read : Row → String → Except CoercionError Int) (low high : Int) : Prop where
  ok : ∀ row column n, read row column = .ok n ↔
    ∃ raw, IsCell row column raw ∧ Holds raw n ∧ low ≤ n ∧ n ≤ high
  error : ∀ row column e, read row column = .error e ↔
    (column ∉ row.cells.map Prod.fst ∧ e = ⟨column, "", .missingColumn⟩) ∨
      ∃ raw, IsCell row column raw ∧ (∀ n, Holds raw n → ¬ (low ≤ n ∧ n ≤ high)) ∧
        e = ⟨column, raw, .notAnInteger⟩
  written : ∀ row column n before after, low ≤ n → n ≤ high →
    (∀ c ∈ before.toList ++ after.toList, isBlank c = true) →
    IsCell row column (before ++ toString n ++ after) → read row column = .ok n

theorem holds_toString {before after : String} (n : Int)
    (h : ∀ c ∈ before.toList ++ after.toList, isBlank c = true) :
    Holds (before ++ toString n ++ after) n :=
  ⟨before.toList, (toString n).toList, after.toList, by simp, h, denotes_toString n⟩

theorem intInRange?_eq_some_iff {low high : Int} :
    intInRange? low high (trimChars raw.toList) = some n ↔ Holds raw n ∧ low ≤ n ∧ n ≤ high := by
  rw [intInRange?, Option.filter_eq_some_iff, ← holds_iff, decide_eq_true_eq]

theorem readsIntegers_readCell (low high : Int) :
    ReadsIntegers (readCell (intInRange? low high) .notAnInteger) low high := by
  have hok : ∀ row column n, readCell (intInRange? low high) .notAnInteger row column = .ok n ↔
      ∃ raw, IsCell row column raw ∧ Holds raw n ∧ low ≤ n ∧ n ≤ high := by
    intro row column n
    simp only [readCell_ok_iff, get?_eq_some_iff, intInRange?_eq_some_iff]
  refine ⟨hok, ?_, ?_⟩
  · intro row column e
    rw [readCell_error_iff]
    refine or_congr (and_congr_left fun _ => find?_eq_none_iff) ?_
    refine exists_congr fun raw => and_congr get?_eq_some_iff (and_congr_left fun _ => ?_)
    rw [Option.eq_none_iff_forall_ne_some]
    simp only [ne_eq, intInRange?_eq_some_iff, not_and]
  · intro row column n before after hlow hhigh hblank hcell
    exact (hok row column n).2 ⟨_, hcell, holds_toString n hblank, hlow, hhigh⟩

/-- The two kinds of integer columns read exactly the integers of 32 and of 64 bits, and what the first
reads the second reads as the same integer. -/
theorem integerCells_exact :
    ReadsIntegers intCell (-2147483648) 2147483647 ∧
      ReadsIntegers longCell (-9223372036854775808) 9223372036854775807 ∧
      ∀ row column n, intCell row column = .ok n → longCell row column = .ok n := by
  have hint : ReadsIntegers intCell (-2147483648) 2147483647 := readsIntegers_readCell ..
  have hlong : ReadsIntegers longCell (-9223372036854775808) 9223372036854775807 :=
    readsIntegers_readCell ..
  refine ⟨hint, hlong, ?_⟩
  intro row column n h
  obtain ⟨raw, hcell, hholds, hlow, hhigh⟩ := (hint.ok row column n).1 h
  exact (hlong.ok row column n).2 ⟨raw, hcell, hholds, by omega, by omega⟩

/-- A row with the least integer of 32 bits, a later cell of the same column, and the first integer that
needs more bits. -/
def limitsRow : Row := ⟨7, [("Low", "\u2003-2147483648\t"), ("Low", "1"), ("High", "+0002147483648 ")]⟩

theorem integerCells_exact_limits : intCell limitsRow "Low" = .ok (-2147483648) ∧
    longCell limitsRow "Low" = .ok (-2147483648) ∧ longCell limitsRow "High" = .ok 2147483648 ∧
    intCell limitsRow "High" = .error ⟨"High", "+0002147483648 ", .notAnInteger⟩ ∧
    intCell limitsRow "Middle" = .error ⟨"Middle", "", .missingColumn⟩ := by
  obtain ⟨hint, hlong, hwider⟩ := integerCells_exact
  have hlow : intCell limitsRow "Low" = .ok (-2147483648) :=
    hint.written limitsRow "Low" (-2147483648) "\u2003" "\t" (by decide) (by decide)
      (List.all_eq_true.1 rfl) ⟨[], _, rfl, by decide⟩
  have hhigh : IsCell limitsRow "High" "+0002147483648 " := ⟨limitsRow.cells.take 2, [], rfl, by decide⟩
  have hholds : Holds "+0002147483648 " 2147483648 :=
    ⟨[], "+0002147483648".toList, [' '], rfl, List.all_eq_true.1 rfl, .plus (isDigits_iff.2 rfl)⟩
  refine ⟨hlow, hwider _ _ _ hlow, ?_, ?_, ?_⟩
  · exact (hlong.ok _ _ _).2 ⟨_, hhigh, hholds, by decide, by decide⟩
  · refine (hint.error _ _ _).2 (.inr ⟨_, hhigh, ?_, rfl⟩)
    rintro n hn ⟨-, hle⟩
    have heq : n = 2147483648 := Option.some.inj ((holds_iff.1 hn).symm.trans (holds_iff.1 hholds))
    omega
  · exact (hint.error _ _ _).2 (.inl ⟨by decide, rfl⟩)

end TypedTables.Binding
