/-
What binding rows comes to, whatever makes the records. A table that binds has the records of exactly
the rows that make one, in order, and the reports of exactly the others. Two ways of making records
that differ by a function on the records bind the same rows, report the same ones and end at the same
one.
-/
import Mathlib.Data.List.Forall2
import TypedTables.Binding.Rows

namespace TypedTables.Binding

open TypedTables.Csv

variable {ρ ρ' : Type} {policy : Policy} {table : String} {build : Row → Except CoercionError ρ}

/-- The rows that make a record, in order. -/
def accepted (build : Row → Except CoercionError ρ) (rows : List Row) : List Row :=
  rows.filter fun row => (build row).isOk

theorem accepted_cons_ok {row : Row} {record : ρ} (h : build row = .ok record) (rest : List Row) :
    accepted build (row :: rest) = row :: accepted build rest :=
  List.filter_cons_of_pos (by rw [h]; rfl)

theorem accepted_cons_error {row : Row} {e : CoercionError} (h : build row = .error e)
    (rest : List Row) : accepted build (row :: rest) = accepted build rest :=
  List.filter_cons_of_neg (by rw [h]; exact Bool.false_ne_true)

theorem exists_of_map_ok {ε α β : Type} {r : Except ε α} {f : α → β} {b : β} (h : r.map f = .ok b) :
    ∃ a, r = .ok a ∧ f a = b := by
  cases r with
  | error e => cases h
  | ok a => cases h; exact ⟨a, rfl, rfl⟩

theorem error_of_map_error {ε α β : Type} {r : Except ε α} {f : α → β} {e : ε}
    (h : r.map f = .error e) : r = .error e := by
  cases r with
  | error e' => cases h; rfl
  | ok a => cases h

/-- A bound table has a record of each row that makes one. -/
theorem bindRows_ok {rows : List Row} {b : Bound ρ} (h : bindRows policy table build rows = .ok b) :
    List.Forall₂ (fun row record => build row = .ok record) (accepted build rows) b.records := by
  induction rows generalizing b with
  | nil => cases h; exact .nil
  | cons row rest ih =>
    rw [bindRows] at h
    cases hrow : build row with
    | ok record =>
      rw [hrow] at h
      obtain ⟨b', hrest, rfl⟩ := exists_of_map_ok h
      rw [accepted_cons_ok hrow]
      exact .cons hrow (ih hrest)
    | error e =>
      rw [hrow] at h
      cases policy with
      | failFast => cases h
      | skipInvalidRows =>
        obtain ⟨b', hrest, rfl⟩ := exists_of_map_ok h
        have hrecords := ih hrest
        rwa [accepted_cons_error hrow]

/-- The rows that make no record, in order. -/
def refused (build : Row → Except CoercionError ρ) (rows : List Row) : List Row :=
  rows.filter fun row => !(build row).isOk

/-- A report of a row: it has the row's line and says what is wrong with it. -/
structure Reports (build : Row → Except CoercionError ρ) (row : Row) (r : Rejection) : Prop where
  line : r.line = row.line
  error : build row = .error r.error

/-- Skipping invalid rows, a bound table has a report of each row that makes no record. -/
theorem bindRows_rejected {rows : List Row} {b : Bound ρ}
    (h : bindRows .skipInvalidRows table build rows = .ok b) :
    List.Forall₂ (Reports build) (refused build rows) b.rejected := by
  induction rows generalizing b with
  | nil => cases h; exact .nil
  | cons row rest ih =>
    rw [bindRows] at h
    cases hrow : build row with
    | ok record =>
      rw [hrow] at h
      obtain ⟨b', hrest, rfl⟩ := exists_of_map_ok h
      have hskip : refused build (row :: rest) = refused build rest :=
        List.filter_cons_of_neg (by rw [hrow]; exact Bool.false_ne_true)
      have hrejected := ih hrest
      rwa [hskip]
    | error e =>
      rw [hrow] at h
      obtain ⟨b', hrest, rfl⟩ := exists_of_map_ok h
      have htake : refused build (row :: rest) = row :: refused build rest :=
        List.filter_cons_of_pos (by rw [hrow]; rfl)
      rw [htake]
      exact .cons ⟨rfl, hrow⟩ (ih hrest)

/-- Skipping invalid rows, every table binds. -/
theorem exists_bindRows_skip (table : String) (build : Row → Except CoercionError ρ)
    (rows : List Row) : ∃ b, bindRows .skipInvalidRows table build rows = .ok b := by
  induction rows with
  | nil => exact ⟨_, rfl⟩
  | cons row rest ih =>
    obtain ⟨b, hb⟩ := ih
    cases hrow : build row with
    | ok record => exact ⟨b.addRecord record, by simp only [bindRows, hrow, hb]; rfl⟩
    | error e => exact ⟨b.addRejection ⟨row.line, e⟩, by simp only [bindRows, hrow, hb]; rfl⟩

/-- What is related to a list has a partner for each of its items. -/
theorem exists_mem_of_forall₂ {α β : Type} {r : α → β → Prop} {as : List α} {bs : List β}
    (h : List.Forall₂ r as bs) {a : α} (ha : a ∈ as) : ∃ b ∈ bs, r a b := by
  induction h with
  | nil => cases ha
  | @cons a' b _ _ hab _ ih =>
    rcases List.mem_cons.1 ha with rfl | ha
    · exact ⟨b, List.mem_cons_self .., hab⟩
    · obtain ⟨b', hb', hab'⟩ := ih ha
      exact ⟨b', List.mem_cons_of_mem _ hb', hab'⟩

/-! ## Two ways of making records -/

variable {build' : Row → Except CoercionError ρ'} {f : ρ → ρ'}

/-- The same rows are bound, with other records. -/
def Bound.mapRecords (f : ρ → ρ') (b : Bound ρ) : Bound ρ' := ⟨b.records.map f, b.rejected⟩

theorem accepted_map (h : ∀ row, build' row = (build row).map f) (rows : List Row) :
    accepted build' rows = accepted build rows := by
  refine List.filter_congr ?_
  intro row _
  rw [h row]
  cases build row <;> rfl

theorem bindRows_map (policy : Policy) (table : String)
    (h : ∀ row, build' row = (build row).map f) : ∀ rows : List Row,
      bindRows policy table build' rows = (bindRows policy table build rows).map (Bound.mapRecords f)
  | [] => rfl
  | row :: rest => by
    have ih := bindRows_map policy table h rest
    rw [bindRows, bindRows, h row]
    cases build row with
    | ok record =>
      simp only [Except.map, ih]
      cases bindRows policy table build rest <;> rfl
    | error e =>
      cases policy with
      | failFast => rfl
      | skipInvalidRows =>
        simp only [Except.map, ih]
        cases bindRows .skipInvalidRows table build rest <;> rfl

end TypedTables.Binding
