/-
Lists of entries with names, in which a look-up takes the first entry of a name. Where no name comes
twice, the entry that is looked up is the one that is there.
-/
import Mathlib.Data.List.Basic

namespace TypedTables

variable {α : Type} {name : String} {a : α} {entries : List (String × α)}

theorem mem_of_find? (h : (entries.find? fun e => e.1 == name).map Prod.snd = some a) :
    (name, a) ∈ entries := by
  obtain ⟨e, he, rfl⟩ := Option.map_eq_some_iff.1 h
  obtain rfl : e.1 = name := by simpa using List.find?_some he
  exact List.mem_of_find?_eq_some he

theorem find?_of_mem (hnodup : (entries.map Prod.fst).Nodup) (h : (name, a) ∈ entries) :
    (entries.find? fun e => e.1 == name).map Prod.snd = some a := by
  induction entries with
  | nil => cases h
  | cons e entries ih =>
    rw [List.map_cons, List.nodup_cons] at hnodup
    rcases List.mem_cons.1 h with rfl | h
    · simp
    · have hne : (e.1 == name) = false := by
        rw [beq_eq_false_iff_ne]
        rintro rfl
        exact hnodup.1 (List.mem_map.2 ⟨_, h, rfl⟩)
      rw [List.find?_cons, hne]
      exact ih hnodup.2 h

theorem find?_eq_none_iff :
    (entries.find? fun e => e.1 == name).map Prod.snd = none ↔ name ∉ entries.map Prod.fst := by
  rw [Option.map_eq_none_iff, List.find?_eq_none, List.mem_map]
  constructor
  · rintro h ⟨e, he, rfl⟩
    exact h e he (by simp)
  · rintro h e he hname
    exact h ⟨e, he, by simpa using hname⟩

/-- The entries of the other names are found as before. -/
theorem find?_others (entries : List (String × α)) (name other : String) :
    ((entries.filter fun e => e.1 != name).find? fun e => e.1 == other) =
      if other = name then none else entries.find? fun e => e.1 == other := by
  induction entries with
  | nil => simp
  | cons e entries ih => by_cases h : e.1 = name <;> by_cases h' : e.1 = other <;> simp_all

/-- The entries of a name with another value, and those of the other names as they are. -/
theorem find?_replaced (entries : List (String × α)) (name other : String) (a : α) :
    ((entries.map fun e => if e.1 = name then (name, a) else e).find? fun e => e.1 == other) =
      if other = name then (entries.find? fun e => e.1 == name).map fun _ => (name, a)
      else entries.find? fun e => e.1 == other := by
  induction entries with
  | nil => simp
  | cons e entries ih =>
    by_cases hname : e.1 = name
    · by_cases hother : other = name
      · simp [hname, hother]
      · have hne : ¬ name = other := Ne.symm hother
        simpa [hname, hother, hne] using ih
    · by_cases hfound : e.1 = other
      · subst hfound
        simp [hname]
      · simpa [hname, hfound] using ih

theorem map_fst_replaced (entries : List (String × α)) (name : String) (a : α) :
    (entries.map fun e => if e.1 = name then (name, a) else e).map Prod.fst =
      entries.map Prod.fst := by
  rw [List.map_map]
  refine List.map_congr_left fun e _ => ?_
  by_cases h : e.1 = name <;> simp [h]

end TypedTables
