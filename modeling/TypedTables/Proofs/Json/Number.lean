/-
Integers are read back. The decimal writing of an integer has no superfluous zero in front, and as
long as its digits fit into the reader's significand none of them is left out, so the reader gets
the integer whatever stands behind it, if only that does not go on with the number. Main statement:
`number_intChars`.
-/
import Mathlib.Data.List.Basic
import Mathlib.Tactic.SplitIfs
import TypedTables.Json.Printer
import TypedTables.Json.Scanner

namespace TypedTables.Json

open TypedTables.Decimal TypedTables.Text.Utf8

/-! ## Decimal digits -/

theorem valueFrom_eq_ofDigitChars (n : Nat) (ds : List Char) :
    valueFrom n ds = Nat.ofDigitChars 10 ds n := by
  rw [Nat.ofDigitChars_eq_foldl]; rfl

theorem valueOf_toDigits (n : Nat) : valueOf (Nat.toDigits 10 n) = n := by
  rw [valueOf, valueFrom_eq_ofDigitChars, Nat.ofDigitChars_ten_toDigits]

theorem isDigit_of_mem_toDigits {n : Nat} : ∀ c ∈ Nat.toDigits 10 n, c.isDigit = true :=
  fun _ hc => Nat.isDigit_of_mem_toDigits (by decide) (by decide) hc

theorem digitChar_ne_zero : ∀ n < 10, 0 < n → n.digitChar ≠ '0' := by decide

theorem head?_toDigits_ne_zero (n : Nat) (hn : 0 < n) : (Nat.toDigits 10 n).head? ≠ some '0' := by
  induction n using Nat.strongRecOn with
  | _ n ih =>
    by_cases h : n < 10
    · rw [Nat.toDigits_of_lt_base h, List.head?_cons]
      simpa using digitChar_ne_zero n h hn
    · -- the last digit is not the first one
      rw [Nat.toDigits_of_base_le (by decide) (by omega), List.head?_append_of_ne_nil _ Nat.toDigits_ne_nil]
      exact ih (n / 10) (by omega) (by omega)

/-- A decimal of several digits does not start with a zero. -/
theorem head?_toDigits {n : Nat} (h : 1 < (Nat.toDigits 10 n).length) :
    (Nat.toDigits 10 n).head? ≠ some '0' := by
  rcases Nat.eq_zero_or_pos n with rfl | hn
  · simp at h
  · exact head?_toDigits_ne_zero n hn

/-! ## Significands -/

theorem le_valueFrom : ∀ (ds : List Char) (n : Nat), n ≤ valueFrom n ds
  | [], n => Nat.le_refl n
  | d :: ds, n => by
    have hrest := le_valueFrom ds (10 * n + digitValue d)
    rw [valueFrom, List.foldl_cons]
    exact Nat.le_trans (by omega) hrest

/-- Digits whose value fits are all taken in. -/
theorem accumulate_eq : ∀ (ds : List Char) (n : Nat), valueFrom n ds ≤ maxSignificand →
    accumulate n ds = (valueFrom n ds, 0)
  | [], _, _ => rfl
  | d :: ds, n, h => by
    have hnext : 10 * n + digitValue d ≤ maxSignificand := Nat.le_trans (le_valueFrom ds _) h
    rw [accumulate, if_pos hnext, accumulate_eq ds _ h]
    rfl

/-! ## Reading -/

/-- What may stand behind a number: nothing that goes on with it. -/
def EndsNumber : Symbols → Prop
  | [] => True
  | c :: _ => isDigit c = false ∧ c ≠ some '.' ∧ c ≠ some 'e' ∧ c ≠ some 'E'

theorem digits_append {ds : List Char} {rest : Symbols} (hds : ∀ c ∈ ds, c.isDigit = true)
    (hrest : EndsNumber rest) : digits (ds.map some ++ rest) = (ds, rest) := by
  have hall : ∀ c ∈ ds.map some, isDigit c = true := by
    intro c hc
    obtain ⟨d, hd, rfl⟩ := List.mem_map.1 hc
    exact hds d hd
  have hstop : rest.takeWhile isDigit = [] ∧ rest.dropWhile isDigit = rest := by
    cases rest with
    | nil => exact ⟨rfl, rfl⟩
    | cons c rest => simp [hrest.1]
  rw [digits, List.takeWhile_append_of_pos hall, List.dropWhile_append_of_pos hall, hstop.1, hstop.2]
  simp [List.filterMap_map]

theorem EndsNumber.not_startsExponent {rest : Symbols} (h : EndsNumber rest) :
    startsExponent rest = false := by
  match rest with
  | [] => rfl
  | none :: _ => rfl
  | some c :: _ =>
    obtain ⟨-, -, he, hE⟩ := h
    simpa [startsExponent] using ⟨fun h => he (by rw [h]), fun h => hE (by rw [h])⟩

theorem magnitude_toDigits (negative : Bool) {n : Nat} (hn : n ≤ maxSignificand) {rest : Symbols}
    (hrest : EndsNumber rest) :
    magnitude negative ((Nat.toDigits 10 n).map some ++ rest) = .ok (ofInteger negative n, rest) := by
  have hvalue : valueFrom 0 (Nat.toDigits 10 n) = n := valueOf_toDigits n
  have hall : accumulate 0 (Nat.toDigits 10 n) = (n, 0) := by
    rw [accumulate_eq _ _ (by rwa [hvalue]), hvalue]
  have hzero : ¬((Nat.toDigits 10 n).head? = some '0' ∧ 1 < (Nat.toDigits 10 n).length) :=
    fun h => head?_toDigits h.2 h.1
  have hexponent := hrest.not_startsExponent
  simp only [magnitude, digits_append isDigit_of_mem_toDigits hrest, hall, if_neg hzero,
    List.isEmpty_iff, Nat.toDigits_ne_nil, if_false]
  -- no point follows
  split
  · exact absurd rfl hrest.2.1
  · simp [hexponent]

/-- The integers that the reader keeps as such. -/
def IsKept (n : Int) : Prop := -(minMagnitude : Int) ≤ n ∧ n ≤ maxSignificand

theorem number_of_isDigit {c : Char} (hc : c.isDigit = true) (s : Symbols) :
    number (some c :: s) = magnitude false (some c :: s) := by
  unfold number
  split
  · rename_i h
    cases h
    exact absurd hc (by decide)
  · rfl

theorem ofInteger_of_neg {n : Int} (h : n < 0) (hn : IsKept n) : ofInteger true n.natAbs = .int n := by
  have hn := hn.1
  have hkept : ¬(n.natAbs = 0 ∨ minMagnitude < n.natAbs) := by omega
  rw [ofInteger, if_neg (by decide), if_neg hkept]
  congr 1
  omega

/-- An integer is read back from its decimal. -/
theorem number_intChars {n : Int} (hn : IsKept n) {rest : Symbols} (hrest : EndsNumber rest) :
    number ((intChars n).map some ++ rest) = .ok (.int n, rest) := by
  have hmagnitude : n.natAbs ≤ maxSignificand := by
    have hbounds := hn
    unfold IsKept minMagnitude maxSignificand at *
    omega
  by_cases h : n < 0
  · rw [intChars, if_pos h, List.map_append, List.map_singleton, List.append_assoc, List.singleton_append,
      number, magnitude_toDigits true hmagnitude hrest, ofInteger_of_neg h hn]
  · obtain ⟨d, ds, hd⟩ := List.exists_cons_of_ne_nil (Nat.toDigits_ne_nil (b := 10) (n := n.natAbs))
    have hdigit : d.isDigit = true := isDigit_of_mem_toDigits d (hd ▸ List.mem_cons_self ..)
    have hread := magnitude_toDigits false hmagnitude hrest
    rw [hd, List.map_cons, List.cons_append] at hread
    rw [intChars, if_neg h, List.nil_append, hd, List.map_cons, List.cons_append,
      number_of_isDigit hdigit, hread]
    have hnonneg : (n.natAbs : Int) = n := by omega
    simp only [ofInteger, Bool.not_false, if_true, hnonneg]

end TypedTables.Json
