/-
Identifiers as names of files. An identifier has no character that means something in a path, and none
of it is a dot, so with an ending it names an entry of a folder.
-/
import TypedTables.Proofs.Files.System
import TypedTables.Proofs.Naming.Identifier

namespace TypedTables.Files

open TypedTables.Naming

variable {name ending : String}

theorem isFileName_of_identifier (h : isIdentifier name = true) (he : '/' ∉ ending.toList) :
    IsFileName (name ++ ending) := by
  obtain ⟨c, rest, hname, hc, hrest⟩ := isIdentifier_iff.1 h
  have hdot : isFirstChar '.' = false := by decide
  have hhead : ∀ other : String, other.toList.head? = some '.' → name ++ ending ≠ other := by
    rintro other hother rfl
    simp only [String.toList_append, hname, List.cons_append, List.head?_cons, Option.some.injEq]
      at hother
    rw [hother, hdot] at hc
    cases hc
  refine ⟨?_, ?_, hhead _ rfl, hhead _ rfl⟩
  · intro hempty
    have hnil := congrArg String.toList hempty
    simp [hname] at hnil
  · rw [String.toList_append, List.mem_append]
    rintro (hmem | hmem)
    · exact not_mem_of_isIdentifier h (by decide) hmem
    · exact he hmem

theorem isEntryName_of_identifier (h : isIdentifier name = true) (he : '/' ∉ ending.toList)
    (hz : '\x00' ∉ ending.toList) : IsEntryName (name ++ ending) where
  toIsFileName := isFileName_of_identifier h he
  noZero := by
    rw [String.toList_append, List.mem_append]
    rintro (hmem | hmem)
    · exact not_mem_of_isIdentifier h (by decide) hmem
    · exact hz hmem

end TypedTables.Files
