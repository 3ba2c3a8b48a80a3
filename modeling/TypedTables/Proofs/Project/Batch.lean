/-
Batches by the outcomes of their files: every file has one result or one failure, and both lists keep
the order of the files.
-/
import TypedTables.Proofs.Project.Claims
import TypedTables.Project.Batch

namespace TypedTables.Project

open TypedTables.Files

variable {α ε γ : Type}

namespace Batch

/-- The batch of files with what came of them. -/
def ofOutcomes : List (TableFile × Except ε α) → Batch α ε
  | [] => .empty
  | (f, outcome) :: rest => (ofOutcomes rest).add f outcome

theorem done_ofOutcomes (outcomes : List (TableFile × Except ε α)) :
    (ofOutcomes outcomes).done = outcomes.filterMap fun x => x.2.toOption := by
  induction outcomes with
  | nil => rfl
  | cons x rest ih =>
    obtain ⟨f, _ | a⟩ := x
    · simpa [ofOutcomes, add, Except.toOption] using ih
    · simpa [ofOutcomes, add, Except.toOption] using ih

/-- A list split into results and failures: each item has one of the two, in order of the items. -/
inductive Splits (done : γ → α → Prop) (failed : γ → Failure ε → Prop) :
    List γ → List α → List (Failure ε) → Prop where
  | nil : Splits done failed [] [] []
  | done {c : γ} {a : α} {rest : List γ} {results : List α} {failures : List (Failure ε)}
      (h : done c a) (hrest : Splits done failed rest results failures) :
      Splits done failed (c :: rest) (a :: results) failures
  | failed {c : γ} {f : Failure ε} {rest : List γ} {results : List α} {failures : List (Failure ε)}
      (h : failed c f) (hrest : Splits done failed rest results failures) :
      Splits done failed (c :: rest) results (f :: failures)

/-- Each item of a list that is split has its result or its failure. -/
theorem Splits.mem {done : γ → α → Prop} {failed : γ → Failure ε → Prop} {items : List γ}
    {results : List α} {failures : List (Failure ε)} (h : Splits done failed items results failures)
    {c : γ} (hc : c ∈ items) : (∃ a ∈ results, done c a) ∨ ∃ f ∈ failures, failed c f := by
  induction h with
  | nil => cases hc
  | done h _ ih =>
    rcases List.mem_cons.1 hc with rfl | hc
    · exact .inl ⟨_, List.mem_cons_self .., h⟩
    · exact (ih hc).imp_left fun ⟨a, ha, hd⟩ => ⟨a, List.mem_cons_of_mem _ ha, hd⟩
  | failed h _ ih =>
    rcases List.mem_cons.1 hc with rfl | hc
    · exact .inr ⟨_, List.mem_cons_self .., h⟩
    · exact (ih hc).imp_right fun ⟨f, hf, hd⟩ => ⟨f, List.mem_cons_of_mem _ hf, hd⟩

theorem splits_ofOutcomes {done : Claim → α → Prop} {failed : Claim → Failure ε → Prop}
    {outcome : Claim → Except ε α} : ∀ {claims : List Claim},
    (∀ c ∈ claims, ∀ a, outcome c = .ok a → done c a) →
    (∀ c ∈ claims, ∀ e, outcome c = .error e → failed c ⟨c.1.name, c.1.path, e⟩) →
      Splits done failed claims (ofOutcomes (claims.map fun c => (c.1, outcome c))).done
        (ofOutcomes (claims.map fun c => (c.1, outcome c))).failures
  | [], _, _ => .nil
  | c :: rest, hdone, hfailed => by
    obtain ⟨hdone, hdones⟩ := List.forall_mem_cons.1 hdone
    obtain ⟨hfailed, hfaileds⟩ := List.forall_mem_cons.1 hfailed
    have ih := splits_ofOutcomes hdones hfaileds
    rw [List.map_cons, ofOutcomes]
    cases hc : outcome c with
    | ok a => exact .done (hdone a hc) ih
    | error e => exact .failed (hfailed e hc) ih

end Batch

end TypedTables.Project
