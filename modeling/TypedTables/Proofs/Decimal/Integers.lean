/-
Integers in decimal: a sign or none, and then digits, of which there is at least one. What digits denote
goes by their positions, so zeros in front of them do not matter. Main statement: `readInt?_eq_some_iff`,
that reading accepts exactly these texts and gives the integers that they denote.
-/
import Mathlib.Data.Nat.Digits.Defs
import TypedTables.Proofs.Json.Number

namespace TypedTables.Decimal

/-! ## Decimal texts -/

/-- ASCII digits, of which there is at least one. -/
structure IsDigits (ds : List Char) : Prop where
  ne_nil : ds ≠ []
  digits : ∀ d ∈ ds, '0' ≤ d ∧ d ≤ '9'

/-- The number that digits denote, the last one counting once and each ten times what the next one does. -/
def positional (ds : List Char) : Nat := Nat.ofDigits 10 (ds.reverse.map fun d => d.toNat - '0'.toNat)

/-- A text denotes an integer in decimal. -/
inductive Denotes : List Char → Int → Prop where
  | unsigned {ds : List Char} (h : IsDigits ds) : Denotes ds (positional ds)
  | plus {ds : List Char} (h : IsDigits ds) : Denotes ('+' :: ds) (positional ds)
  | minus {ds : List Char} (h : IsDigits ds) : Denotes ('-' :: ds) (-(positional ds : Int))

/-! ## Digits -/

theorem isDigit_iff {d : Char} : d.isDigit = true ↔ '0' ≤ d ∧ d ≤ '9' := by
  simp [Char.isDigit, Char.le_def]

theorem isDigits_iff {ds : List Char} :
    IsDigits ds ↔ (ds.isEmpty || !ds.all Char.isDigit) = false := by
  simp only [Bool.or_eq_false_iff, Bool.not_eq_false', List.isEmpty_eq_false_iff, List.all_eq_true,
    isDigit_iff]
  exact ⟨fun h => ⟨h.ne_nil, h.digits⟩, fun h => ⟨h.1, h.2⟩⟩

/-- Reading from the left, a number before the digits counts as much as they have places. -/
theorem valueFrom_eq_positional (n : Nat) (ds : List Char) :
    valueFrom n ds = n * 10 ^ ds.length + positional ds := by
  induction ds generalizing n with
  | nil => simp [valueFrom, positional]
  | cons d ds ih =>
    have hstep : valueFrom n (d :: ds) = valueFrom (10 * n + digitValue d) ds := rfl
    have hfront : positional (d :: ds) = positional ds + 10 ^ ds.length * digitValue d := by
      unfold positional
      rw [List.reverse_cons, List.map_append, Nat.ofDigits_append]
      simp [digitValue]
    rw [hstep, ih, hfront, List.length_cons]
    ring

theorem valueOf_eq_positional (ds : List Char) : valueOf ds = positional ds := by
  rw [valueOf, valueFrom_eq_positional]
  omega

/-! ## Reading -/

/-- What a sign and what follows it denote. -/
theorem denotes_iff {cs : List Char} {n : Int} :
    Denotes cs n ↔ IsDigits (dropSign cs).2 ∧
      n = if (dropSign cs).1 then -(positional (dropSign cs).2 : Int) else positional (dropSign cs).2 := by
  constructor
  · intro h
    cases h with
    | plus h => exact ⟨h, rfl⟩
    | minus h => exact ⟨h, rfl⟩
    | unsigned h =>
      -- a digit is no sign
      have hsign : dropSign cs = (false, cs) := by
        unfold dropSign
        split
        · exact absurd (h.digits '-' (by simp)) (by decide)
        · exact absurd (h.digits '+' (by simp)) (by decide)
        · rfl
      rw [hsign]
      exact ⟨h, rfl⟩
  · rintro ⟨h, rfl⟩
    unfold dropSign at h ⊢
    split at h
    · exact .minus h
    · exact .plus h
    · exact .unsigned h

/-- Reading accepts exactly the integers in decimal. -/
theorem readInt?_eq_some_iff {cs : List Char} {n : Int} : readInt? cs = some n ↔ Denotes cs n := by
  rw [denotes_iff, isDigits_iff]
  unfold readInt?
  simp only [valueOf_eq_positional]
  split
  · rename_i h
    simp [h]
  · rename_i h
    rw [Bool.not_eq_true] at h
    simp only [h, Option.some.injEq, true_and]
    exact eq_comm

/-! ## Writing -/

theorem isDigits_toDigits (n : Nat) : IsDigits (Nat.toDigits 10 n) :=
  ⟨Nat.toDigits_ne_nil, fun d hd => isDigit_iff.1 (Json.isDigit_of_mem_toDigits d hd)⟩

theorem positional_toDigits (n : Nat) : positional (Nat.toDigits 10 n) = n := by
  rw [← valueOf_eq_positional, Json.valueOf_toDigits]

/-- An integer is denoted by its decimal writing. -/
theorem denotes_toString : ∀ n : Int, Denotes (toString n).toList n
  | .ofNat n => by
    have htext : (toString (Int.ofNat n)).toList = Nat.toDigits 10 n := Nat.toList_repr
    have hdenotes := Denotes.unsigned (isDigits_toDigits n)
    rwa [positional_toDigits, ← htext] at hdenotes
  | .negSucc n => by
    have htext : (toString (Int.negSucc n)).toList = '-' :: Nat.toDigits 10 (n + 1) := by
      show ("-" ++ Nat.repr (n + 1)).toList = _
      rw [String.toList_append, Nat.toList_repr]
      rfl
    have hdenotes := Denotes.minus (isDigits_toDigits (n + 1))
    rwa [positional_toDigits, ← htext] at hdenotes

end TypedTables.Decimal
