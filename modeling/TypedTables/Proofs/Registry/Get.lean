/-
One call of a registry. It is answered from the slot of its name or loads the table, and then leaves
the slot filled, failed or taken out (`GetCase`); it touches the slot of no other name.
-/
import Mathlib.Data.List.Nodup
import TypedTables.Proofs.Entries
import TypedTables.Registry.Machine

namespace TypedTables.Registry

variable [TableTypes] {loader : Loader} {r r' : Registry} {name : String} {type : Ty} {answer : Answer}

/-! ## Slots -/

theorem slot?_setSlot (r : Registry) (name other : String) (slot : Option Slot) :
    (r.setSlot name slot).slot? other = if other = name then slot else r.slot? other := by
  cases slot with
  | none =>
    unfold slot? setSlot
    rw [find?_others]
    split_ifs <;> rfl
  | some s =>
    by_cases hsome : (r.slot? name).isSome
    · rw [setSlot, if_pos hsome]
      unfold slot? at hsome ⊢
      rw [find?_replaced]
      split_ifs
      · rw [Option.isSome_map] at hsome
        obtain ⟨e, he⟩ := Option.isSome_iff_exists.1 hsome
        rw [he]; rfl
      · rfl
    · rw [setSlot, if_neg hsome]
      unfold slot?
      by_cases h : other = name
      · simp [h]
      · simp only [List.find?_cons, beq_eq_false_iff_ne.2 (Ne.symm h), if_neg h]

/-- No two slots have one name. -/
def OnePerName (r : Registry) : Prop := (r.slots.map Prod.fst).Nodup

theorem onePerName_empty : empty.OnePerName := List.nodup_nil

theorem OnePerName.slot?_eq_some (h : r.OnePerName) {s : Slot} :
    r.slot? name = some s ↔ (name, s) ∈ r.slots :=
  ⟨mem_of_find?, find?_of_mem h⟩

/-! ## One call -/

/-- The slot of the name holds no instance, so that a call has to load the table. -/
def IsOpen (r : Registry) (name : String) : Prop := ∀ i, r.slot? name ≠ some (.loaded i)

/-- The answer to a call for a name that has an instance. -/
def heldAnswer (name : String) (type : Ty) (i : Instance) : Answer :=
  if i.table.type = type then .ok i else .error (.typeMismatch name type)

/-- The registry after a load: it is counted, and the slot of its name is written or taken out. -/
def afterWrite (r : Registry) (name : String) (slot : Option Slot) (nextId : Nat) : Registry :=
  { r.setSlot name slot with nextId := nextId, loads := r.loads + 1 }

theorem slot?_afterWrite (r : Registry) (name other : String) (slot : Option Slot) (nextId : Nat) :
    (r.afterWrite name slot nextId).slot? other = if other = name then slot else r.slot? other :=
  slot?_setSlot r name other slot

theorem OnePerName.setSlot (h : r.OnePerName) (name : String) (slot : Option Slot) :
    (r.setSlot name slot).OnePerName := by
  cases slot with
  | none => exact List.Nodup.sublist (List.filter_sublist.map _) h
  | some s =>
    unfold OnePerName
    by_cases hsome : (r.slot? name).isSome
    · rw [Registry.setSlot, if_pos hsome, map_fst_replaced]
      exact h
    · rw [Registry.setSlot, if_neg hsome]
      exact List.nodup_cons.2 ⟨find?_eq_none_iff.1 (Option.not_isSome_iff_eq_none.1 hsome), h⟩

theorem OnePerName.afterWrite (h : r.OnePerName) (name : String) (slot : Option Slot) (nextId : Nat) :
    (r.afterWrite name slot nextId).OnePerName :=
  h.setSlot name slot

/-- All that a call can come to: its answer, and the registry after it. -/
inductive GetCase (loader : Loader) (r : Registry) (name : String) (type : Ty) :
    Answer → Registry → Prop where
  | held {i : Instance} (hslot : r.slot? name = some (.loaded i)) :
      GetCase loader r name type (heldAnswer name type i) r
  | loaded {table : AnyTable} (hopen : r.IsOpen name) (hload : load loader name type = .ok table) :
      GetCase loader r name type (.ok ⟨r.nextId, table⟩)
        (r.afterWrite name (some (.loaded ⟨r.nextId, table⟩)) (r.nextId + 1))
  | missing (hopen : r.IsOpen name) (hload : load loader name type = .error (.notFound name)) :
      GetCase loader r name type (.error (.notFound name)) (r.afterWrite name none r.nextId)
  | failed {e : LoadError} (hopen : r.IsOpen name) (hload : load loader name type = .error e)
      (hfound : ∀ n, e ≠ .notFound n) :
      GetCase loader r name type (.error e) (r.afterWrite name (some (.failed e)) r.nextId)

theorem load_notFound {n : String} (h : load loader name type = .error (.notFound n)) : n = name := by
  unfold load at h
  split at h
  · cases h
  · cases h; rfl
  · split at h <;> cases h
  · cases h

theorem get_of_held {i : Instance} (h : r.slot? name = some (.loaded i)) :
    r.get loader name type = (heldAnswer name type i, r) := by
  simp only [get, h, Option.bind_some, Slot.answer?, heldAnswer]

theorem answer?_of_isOpen (h : r.IsOpen name) : (r.slot? name).bind (Slot.answer? name type) = none := by
  rcases hs : r.slot? name with _ | (_ | i | _ | _)
  case some.loaded => exact absurd hs (h i)
  all_goals rfl

theorem get_cases (loader : Loader) (r : Registry) (name : String) (type : Ty) :
    GetCase loader r name type (r.get loader name type).1 (r.get loader name type).2 := by
  by_cases hheld : ∃ i, r.slot? name = some (.loaded i)
  · obtain ⟨i, hi⟩ := hheld
    rw [get_of_held hi]
    exact .held hi
  · have hopen : r.IsOpen name := not_exists.1 hheld
    simp only [get, answer?_of_isOpen hopen]
    rcases hload : load loader name type with e | table
    · cases e with
      | notFound n =>
        obtain rfl := load_notFound hload
        exact .missing hopen hload
      | _ => exact .failed hopen hload (by simp)
    · exact .loaded hopen hload

theorem GetCase.get_eq (h : GetCase loader r name type answer r') :
    r.get loader name type = (answer, r') := by
  cases h with
  | held hslot => exact get_of_held hslot
  | loaded hopen hload => simp only [get, answer?_of_isOpen hopen, hload]; rfl
  | missing hopen hload => simp only [get, answer?_of_isOpen hopen, hload]; rfl
  | @failed e hopen hload hfound =>
    simp only [get, answer?_of_isOpen hopen, hload]
    cases e with
    | notFound n => exact absurd rfl (hfound n)
    | _ => rfl

theorem GetCase.onePerName (h : GetCase loader r name type answer r') (hr : r.OnePerName) :
    r'.OnePerName := by
  cases h with
  | held => exact hr
  | _ => exact hr.afterWrite name _ _

end TypedTables.Registry
