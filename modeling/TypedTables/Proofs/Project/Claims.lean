/-
Claims of table names keep tables apart: a claim that is granted is the name of the file's stem, and
neither its type nor its module is that of a claim granted before. Main statement: `claimAll_apart`.
-/
import TypedTables.Project.NameClaims

namespace TypedTables.Project

open TypedTables.Files TypedTables.Schema

/-- A file with what came of its claim. -/
abbrev Claim := TableFile × Except InputError TableNames

theorem ok_of_toOption {α ε : Type} {r : Except ε α} {a : α} (h : r.toOption = some a) : r = .ok a := by
  cases r with
  | error e => cases h
  | ok a' => cases h; rfl

def Owners.names (owners : Owners) : List String := owners.map Prod.fst

theorem owner?_eq_none {owners : Owners} {name : String} :
    owners.owner? name = none ↔ name ∉ owners.names := by
  simp only [Owners.owner?, Owners.names, Option.map_eq_none_iff, List.find?_eq_none, beq_iff_eq,
    List.mem_map, not_exists, not_and]

/-- A claim is granted to names of the stem that nobody owns. -/
theorem claimNames_ok {owners : Owners} {f : TableFile} {names : TableNames}
    (h : claimNames owners f = .ok names) : TableNames.ofStem f.name = .ok names ∧
      names.typeName ∉ owners.names ∧ names.moduleName ∉ owners.names := by
  unfold claimNames at h
  split at h
  · cases h
  · rename_i names' hstem
    split at h
    · cases h
    · rename_i hnone
      cases h
      rw [Option.or_eq_none_iff, owner?_eq_none, owner?_eq_none] at hnone
      exact ⟨hstem, hnone⟩

theorem names_subset_add (owners : Owners) (f : TableFile) (claim : Except InputError TableNames)
    {name : String} (h : name ∈ owners.names) : name ∈ (owners.add f claim).names := by
  cases claim with
  | ok names => exact List.mem_cons_of_mem _ (List.mem_cons_of_mem _ h)
  | error e => exact h

theorem claimAll_files : ∀ (owners : Owners) (files : List TableFile),
    (claimAll owners files).map Prod.fst = files
  | _, [] => rfl
  | owners, f :: rest => by rw [claimAll, List.map_cons, claimAll_files]

/-- A granted claim among others, made while some names were owned already. -/
theorem claimAll_ok {owners : Owners} {files : List TableFile} {c : Claim} {names : TableNames}
    (hc : c ∈ claimAll owners files) (h : c.2 = .ok names) : TableNames.ofStem c.1.name = .ok names ∧
      names.typeName ∉ owners.names ∧ names.moduleName ∉ owners.names := by
  induction files generalizing owners with
  | nil => cases hc
  | cons f rest ih =>
    rcases List.mem_cons.1 hc with rfl | hc
    · exact claimNames_ok h
    · obtain ⟨hstem, htype, hmodule⟩ := ih hc
      refine ⟨hstem, ?_, ?_⟩
      · intro ht
        exact htype (names_subset_add owners f _ ht)
      · intro hm
        exact hmodule (names_subset_add owners f _ hm)

/-- Two claims that, if granted both, have neither a type nor a module in common. -/
def Apart (c d : Claim) : Prop :=
  ∀ names names', c.2 = .ok names → d.2 = .ok names' →
    names.typeName ≠ names'.typeName ∧ names.moduleName ≠ names'.moduleName

instance : Std.Symm Apart where
  symm _ _ h names names' hd hc :=
    ⟨(h names' names hc hd).1.symm, (h names' names hc hd).2.symm⟩

theorem claimAll_apart (owners : Owners) (files : List TableFile) :
    (claimAll owners files).Pairwise Apart := by
  induction files generalizing owners with
  | nil => exact .nil
  | cons f rest ih =>
    refine List.pairwise_cons.2 ⟨?_, ih _⟩
    intro d hd names names' hc hd'
    -- the names granted to the first file are owned when the others claim theirs
    obtain ⟨-, htype, hmodule⟩ := claimAll_ok hd hd'
    rw [show claimNames owners f = .ok names from hc, Owners.add, Owners.names, List.map_cons,
      List.map_cons, List.mem_cons, List.mem_cons, not_or, not_or] at htype hmodule
    exact ⟨Ne.symm htype.1, Ne.symm hmodule.2.1⟩

end TypedTables.Project
