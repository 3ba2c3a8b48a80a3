/-
The two policies of binding against each other. Skipping invalid rows always gives a table, and every
row of the input is either a record of it or among its reports. Failing fast gives that very table when
there is no report, and ends with the first report otherwise. Main statement: `bindRows_policies`.
-/
import TypedTables.Proofs.Binding.Rows

namespace TypedTables.Binding

open TypedTables.Csv

variable {ρ : Type} {table : String} {build : Row → Except CoercionError ρ}

/-- What is left of a binding when the first report ends it. -/
def Bound.unlessRejected (table : String) (b : Bound ρ) : Except BindError (Bound ρ) :=
  match b.rejected with
  | [] => .ok b
  | r :: _ => .error ⟨table, r.line, r.error⟩

theorem Bound.map_unlessRejected (table : String) (record : ρ) (b : Bound ρ) :
    (b.unlessRejected table).map (Bound.addRecord record) =
      (b.addRecord record).unlessRejected table := by
  obtain ⟨records, rejected⟩ := b
  cases rejected <;> rfl

theorem Bound.unlessRejected_ok_iff {b b' : Bound ρ} :
    b.unlessRejected table = .ok b' ↔ b.rejected = [] ∧ b' = b := by
  obtain ⟨records, rejected⟩ := b
  cases rejected with
  | nil => simp [unlessRejected, eq_comm]
  | cons r rejected => simp [unlessRejected]

theorem Bound.unlessRejected_error_iff {b : Bound ρ} {e : BindError} :
    b.unlessRejected table = .error e ↔
      ∃ r, b.rejected.head? = some r ∧ e = ⟨table, r.line, r.error⟩ := by
  obtain ⟨records, rejected⟩ := b
  cases rejected with
  | nil => simp [unlessRejected]
  | cons r rejected => simp [unlessRejected, eq_comm]

/-- Failing fast ends with the first report of skipping. A row that makes a record is added to both
results, and a row that makes none is the first report of its own tail. -/
theorem bindRows_failFast {rows : List Row} {b : Bound ρ}
    (h : bindRows .skipInvalidRows table build rows = .ok b) :
    bindRows .failFast table build rows = b.unlessRejected table := by
  induction rows generalizing b with
  | nil => cases h; rfl
  | cons row rest ih =>
    rw [bindRows] at h ⊢
    cases hrow : build row with
    | ok record =>
      rw [hrow] at h
      obtain ⟨b', hrest, rfl⟩ := exists_of_map_ok h
      simp only [ih hrest, Bound.map_unlessRejected]
    | error e =>
      rw [hrow] at h
      obtain ⟨b', hrest, rfl⟩ := exists_of_map_ok h
      rfl

theorem length_accepted_add_refused (build : Row → Except CoercionError ρ) (rows : List Row) :
    (accepted build rows).length + (refused build rows).length = rows.length :=
  (List.length_eq_length_filter_add _).symm

/-- Skipping invalid rows always binds. The records are those of exactly the rows that make one, in
order, the reports those of exactly the other rows, in order, and together they are as many as the rows.
Failing fast binds exactly when there is no report, with the same records, and fails exactly when there
is a first report, with its line and its error under the name of the table. -/
theorem bindRows_policies (table : String) (build : Row → Except CoercionError ρ) (rows : List Row) :
    ∃ b, bindRows .skipInvalidRows table build rows = .ok b ∧
      List.Forall₂ (fun row record => build row = .ok record) (accepted build rows) b.records ∧
      List.Forall₂ (Reports build) (refused build rows) b.rejected ∧
      b.records.length + b.rejected.length = rows.length ∧
      (∀ b', bindRows .failFast table build rows = .ok b' ↔ b.rejected = [] ∧ b' = b) ∧
      ∀ e, bindRows .failFast table build rows = .error e ↔
        ∃ r, b.rejected.head? = some r ∧ e = ⟨table, r.line, r.error⟩ := by
  obtain ⟨b, hb⟩ := exists_bindRows_skip table build rows
  have hrecords := bindRows_ok hb
  have hrejected := bindRows_rejected hb
  have hfast := bindRows_failFast hb
  refine ⟨b, hb, hrecords, hrejected, ?_, ?_, ?_⟩
  · rw [← hrecords.length_eq, ← hrejected.length_eq, length_accepted_add_refused]
  · intro b'
    rw [hfast, Bound.unlessRejected_ok_iff]
  · intro e
    rw [hfast, Bound.unlessRejected_error_iff]

end TypedTables.Binding
