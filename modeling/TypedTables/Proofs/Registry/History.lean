/-
What callers see of a registry follows from the answers that they were given. A name is loaded once
a call for it got an instance, and stays so; until then it shows the last failure, unless nothing was
stored under the name. The store is asked by the calls for names without an instance and by no
other, and these are answered with what it has then. Main statement: `run_reflects`.

The induction is on the actions of a run; `Tracks` is what ties the slots to the answers so far.
-/
import Mathlib.Data.List.Sort
import Mathlib.Data.String.Basic
import TypedTables.Proofs.Registry.Session

namespace TypedTables.Registry

variable [TableTypes]

/-- Calls with their answers, the last first. -/
abbrev Answers := List (Call × Answer)

namespace Answers

/-- Whether a call for the name got an instance. -/
def held (h : Answers) (name : String) : Bool := h.any fun a => a.1.name == name && a.2.isOk

/-- The answer to the last call for the name. -/
def last? (h : Answers) (name : String) : Option Answer :=
  (h.find? fun a => a.1.name == name).map Prod.snd

/-- The names of the calls before which no other had got an instance of their name, the last first. -/
def missed : Answers → List String
  | [] => []
  | (c, _) :: earlier => if held earlier c.name then missed earlier else c.name :: missed earlier

variable {h : Answers} {c : Call} {answer : Answer} {name : String}

theorem held_iff : h.held name = true ↔ ∃ c i, c.name = name ∧ (c, .ok i) ∈ h := by
  simp only [held, List.any_eq_true, Bool.and_eq_true, beq_iff_eq]
  constructor
  · rintro ⟨⟨c, answer⟩, hmem, hname, hok⟩
    cases answer with
    | error e => cases hok
    | ok i => exact ⟨c, i, hname, hmem⟩
  · rintro ⟨c, i, hname, hmem⟩
    exact ⟨_, hmem, hname, rfl⟩

theorem held_cons_error (e : LoadError) : held ((c, .error e) :: h) name = held h name := by
  simp [held, Except.isOk, Except.toBool]

theorem held_cons_of_ne (hne : c.name ≠ name) : held ((c, answer) :: h) name = held h name := by
  simp [held, hne]

theorem last?_cons_self : last? ((c, answer) :: h) c.name = some answer := by
  simp [last?]

theorem last?_cons_of_ne (hne : c.name ≠ name) : last? ((c, answer) :: h) name = last? h name := by
  simp [last?, hne]

end Answers

open Answers

/-! ## Slots and answers -/

/-- A call for a name of which an earlier one got an instance gets the same one, if it asks for the
type of the table. -/
def Repeats (h : Answers) : Prop :=
  ∀ later c answer earlier, h = later ++ (c, answer) :: earlier →
    ∀ c' i, c'.name = c.name → (c', .ok i) ∈ earlier → answer = heldAnswer c.name c.type i

/-- The slots hold what the answers so far left in them. -/
structure Tracks (h : Answers) (r : Registry) : Prop where
  onePerName : r.OnePerName
  loaded : ∀ name i, r.slot? name = some (.loaded i) ↔ ∃ c, c.name = name ∧ (c, .ok i) ∈ h
  failed : ∀ name e, r.slot? name = some (.failed e) ↔
    h.held name = false ∧ h.last? name = some (.error e) ∧ ∀ n, e ≠ .notFound n
  repeats : Repeats h

theorem tracks_empty : Tracks [] Registry.empty where
  onePerName := onePerName_empty
  loaded name i := by simp [slot?, Registry.empty]
  failed name e := by simp [slot?, Registry.empty, last?]
  repeats later c answer earlier h := by simp at h

namespace Tracks

variable {loader : Loader} {h : Answers} {r r' : Registry} {c : Call} {answer : Answer} {name : String}

theorem held_iff (ht : Tracks h r) : h.held name = true ↔ ∃ i, r.slot? name = some (.loaded i) := by
  rw [Answers.held_iff, exists_comm]
  exact exists_congr fun i => (ht.loaded name i).symm

theorem isOpen_iff (ht : Tracks h r) : r.IsOpen name ↔ h.held name = false := by
  rw [← Bool.not_eq_true, ht.held_iff, not_exists, IsOpen]

theorem repeats_cons (ht : Tracks h r)
    (hnew : ∀ i, r.slot? c.name = some (.loaded i) → answer = heldAnswer c.name c.type i) :
    Repeats ((c, answer) :: h) := by
  intro later c₁ answer₁ earlier heq c₂ i hname hmem
  rcases List.cons_eq_append_iff.1 heq with ⟨-, heq⟩ | ⟨later, -, heq⟩
  · cases heq
    exact hnew i ((ht.loaded _ _).2 ⟨c₂, hname, hmem⟩)
  · exact ht.repeats later c₁ answer₁ earlier heq c₂ i hname hmem

/-- A call for a name that has an instance changes nothing. -/
theorem call_held (ht : Tracks h r) {i : Instance} (hslot : r.slot? c.name = some (.loaded i)) :
    Tracks ((c, heldAnswer c.name c.type i) :: h) r := by
  have hheld : h.held c.name = true := ht.held_iff.2 ⟨i, hslot⟩
  refine ⟨ht.onePerName, ?_, ?_, ht.repeats_cons ?_⟩
  · intro name j
    rw [ht.loaded]
    refine ⟨fun ⟨c', hname, hmem⟩ => ⟨c', hname, List.mem_cons_of_mem _ hmem⟩, ?_⟩
    rintro ⟨c', rfl, hmem⟩
    rcases List.mem_cons.1 hmem with heq | hmem
    · -- the instance answered is the one in the slot
      obtain ⟨rfl, hj⟩ := Prod.mk.inj heq
      unfold heldAnswer at hj
      split_ifs at hj
      cases hj
      exact (ht.loaded _ _).1 hslot
    · exact ⟨c', rfl, hmem⟩
  · intro name e
    rw [ht.failed]
    by_cases hname : c.name = name
    · subst hname
      have hheld' : held ((c, heldAnswer c.name c.type i) :: h) c.name = true := by
        simp only [held, List.any_cons, Bool.or_eq_true] at hheld ⊢
        exact .inr hheld
      simp [hheld, hheld']
    · rw [held_cons_of_ne hname, last?_cons_of_ne hname]
  · intro j hj
    rw [hslot] at hj
    cases hj; rfl

/-- The slot that a load leaves for a name, by the answer of its call. -/
def slotLeft : Answer → Option Slot
  | .ok i => some (.loaded i)
  | .error (.notFound _) => none
  | .error e => some (.failed e)

theorem slotLeft_loaded {i : Instance} : slotLeft answer = some (.loaded i) ↔ answer = .ok i := by
  rcases answer with (_ | _ | _ | _ | _) | j <;> simp [slotLeft]

theorem slotLeft_failed {e : LoadError} :
    slotLeft answer = some (.failed e) ↔ answer = .error e ∧ ∀ n, e ≠ .notFound n := by
  rcases answer with (_ | _ | _ | _ | _) | j <;> simp [slotLeft] <;> grind

/-- A call that has to load leaves its slot as its answer says, and the others as they were. -/
theorem call_open (ht : Tracks h r) (hopen : r.IsOpen c.name) (answer : Answer) (nextId : Nat) :
    Tracks ((c, answer) :: h) (r.afterWrite c.name (slotLeft answer) nextId) := by
  have hnone := ht.isOpen_iff.1 hopen
  refine ⟨ht.onePerName.afterWrite _ _ _, ?_, ?_, ht.repeats_cons fun i hi => absurd hi (hopen i)⟩
  · intro name i
    rw [slot?_afterWrite]
    split_ifs with hname
    · subst hname
      rw [slotLeft_loaded]
      constructor
      · rintro rfl
        exact ⟨c, rfl, List.mem_cons_self ..⟩
      · rintro ⟨c', hname, hmem⟩
        rcases List.mem_cons.1 hmem with heq | hmem
        · exact (Prod.mk.inj heq).2.symm
        · exact absurd (Answers.held_iff.2 ⟨c', i, hname, hmem⟩) (by simp [hnone])
    · rw [ht.loaded]
      refine exists_congr fun c' => and_congr_right fun hc' => ?_
      rw [List.mem_cons, or_iff_right]
      rintro heq
      exact hname (hc'.symm.trans (congrArg Call.name (Prod.mk.inj heq).1))
  · intro name e
    rw [slot?_afterWrite]
    split_ifs with hname
    · subst hname
      rw [slotLeft_failed, last?_cons_self, Option.some.injEq]
      refine ⟨fun ⟨heq, he⟩ => ⟨?_, heq, he⟩, And.right⟩
      rw [heq, held_cons_error, hnone]
    · rw [ht.failed, held_cons_of_ne (Ne.symm hname), last?_cons_of_ne (Ne.symm hname)]

theorem call (ht : Tracks h r) (hcase : GetCase loader r c.name c.type answer r') :
    Tracks ((c, answer) :: h) r' := by
  cases hcase with
  | held hslot => exact ht.call_held hslot
  | loaded hopen => exact ht.call_open hopen (.ok _) _
  | missing hopen => exact ht.call_open hopen (.error (.notFound _)) _
  | @failed e hopen hload hfound =>
    have hleft : slotLeft (.error e) = some (.failed e) := slotLeft_failed.2 ⟨rfl, hfound⟩
    rw [← hleft]
    exact ht.call_open hopen (.error e) _

end Tracks

/-! ## Runs -/

section

variable {σ : Type} {loadAll : σ → Loader} {store : σ}

/-- A call for a name of which no earlier one got an instance is answered with the table that the store
has for it at that time, or with what is wrong with it. -/
def AnsweredByStore (loadAll : σ → Loader) (store : σ) (log : List (Entry σ)) : Prop :=
  ∀ later c answer earlier, log = later ++ .answered c answer :: earlier →
    held (answersOf earlier) c.name = false →
    answer.map Instance.table = load (loadAll (storeAfter store earlier)) c.name c.type

/-- The log tells of all actions, and the slots, the store and its loads are as it says. -/
structure Accounts (loadAll : σ → Loader) (store : σ) (actions : List (Action σ)) (s : Session σ) :
    Prop where
  actions : actionsOf s.log = actions
  tracks : Tracks s.answers s.registry
  stored : s.machine.store = storeAfter store s.log
  loads : s.machine.loads = missed s.answers
  answered : AnsweredByStore loadAll store s.log

theorem AnsweredByStore.changed {log : List (Entry σ)} (h : AnsweredByStore loadAll store log) (f : σ → σ) :
    AnsweredByStore loadAll store (.changed f :: log) := by
  intro later c answer earlier heq
  rcases List.cons_eq_append_iff.1 heq with ⟨-, heq⟩ | ⟨later, -, heq⟩
  · cases heq
  · exact h later c answer earlier heq

theorem AnsweredByStore.call {log : List (Entry σ)} (h : AnsweredByStore loadAll store log) {r r' : Registry}
    {c : Call} {answer : Answer} (ht : Tracks (answersOf log) r)
    (hcase : GetCase (loadAll (storeAfter store log)) r c.name c.type answer r') :
    AnsweredByStore loadAll store (.answered c answer :: log) := by
  intro later c₁ answer₁ earlier heq hnone
  rcases List.cons_eq_append_iff.1 heq with ⟨-, heq⟩ | ⟨later, -, heq⟩
  · cases heq
    cases hcase with
    | held hslot => exact absurd hslot (ht.isOpen_iff.2 hnone _)
    | loaded hopen hload => exact hload.symm
    | missing hopen hload => exact hload.symm
    | failed hopen hload => exact hload.symm
  · exact h later c₁ answer₁ earlier heq hnone

theorem accounts_run (loadAll : σ → Loader) (store : σ) (actions : List (Action σ)) :
    Accounts loadAll store actions (Session.run loadAll store actions) := by
  induction actions using List.reverseRecOn with
  | nil =>
    refine ⟨rfl, tracks_empty, rfl, rfl, ?_⟩
    intro later c answer earlier h
    simp [Session.run, Session.start] at h
  | append_singleton actions a ih =>
    have hrests := Session.rests_run loadAll store actions
    rw [Session.run_append_singleton]
    generalize Session.run loadAll store actions = s at ih hrests ⊢
    cases a with
    | change f =>
      refine ⟨?_, ih.tracks, congrArg f ih.stored, ih.loads, ih.answered.changed f⟩
      rw [Session.act, actionsOf_cons, ih.actions]; rfl
    | call c =>
      obtain ⟨answer, hlog, hcase, halone⟩ := Session.act_call hrests loadAll c
      generalize s.act loadAll (.call c) = s' at hlog hcase halone ⊢
      have hanswers : s'.answers = (c, answer) :: s.answers := by
        rw [Session.answers, hlog]; rfl
      refine ⟨?_, ?_, ?_, ?_, ?_⟩
      · rw [hlog, actionsOf_cons, ih.actions]; rfl
      · rw [hanswers]
        exact ih.tracks.call hcase
      · rw [halone.store, hlog, ih.stored]; rfl
      · rw [hanswers, missed]
        split_ifs with hheld
        · obtain ⟨i, hi⟩ := ih.tracks.held_iff.1 hheld
          rw [halone.heldLoads i hi, ih.loads]
        · rw [halone.openLoads (ih.tracks.isOpen_iff.2 (by simpa using hheld)), ih.loads]
      · rw [hlog]
        rw [ih.stored] at hcase
        exact ih.answered.call ih.tracks hcase

end

/-! ## What callers see -/

/-- What callers see of the slots after some answers. -/
structure Reflects (h : Answers) (r : Registry) : Prop where
  loaded : ∀ name, r.state name = .loaded ↔ h.held name = true
  failed : ∀ name message, r.state name = .failed message ↔ h.held name = false ∧
    ∃ e, h.last? name = some (.error e) ∧ (∀ n, e ≠ .notFound n) ∧ e.message = message
  unloaded : ∀ name, r.state name = .unloaded ↔ h.held name = false ∧
    ∀ e, h.last? name = some (.error e) → ∃ n, e = .notFound n
  names : ∀ name, name ∈ r.loadedNames ↔ h.held name = true
  ascending : r.loadedNames.Pairwise (· < ·)
  repeats : Repeats h

section

variable {h : Answers} {r : Registry} {name : String}

theorem state_loaded : r.state name = .loaded ↔ ∃ i, r.slot? name = some (.loaded i) := by
  unfold state
  rcases r.slot? name with _ | (_ | _ | _ | _) <;> simp [Slot.state]

theorem state_failed {message : String} :
    r.state name = .failed message ↔ ∃ e, r.slot? name = some (.failed e) ∧ e.message = message := by
  unfold state
  rcases r.slot? name with _ | (_ | _ | _ | _) <;> simp [Slot.state]

theorem state_unloaded : r.state name = .unloaded ↔
    r.IsOpen name ∧ ∀ e, r.slot? name ≠ some (.failed e) := by
  unfold state IsOpen
  rcases r.slot? name with _ | (_ | _ | _ | _) <;> simp [Slot.state]

theorem mem_loadedNames (hr : r.OnePerName) :
    name ∈ r.loadedNames ↔ ∃ i, r.slot? name = some (.loaded i) := by
  simp only [loadedNames, List.mem_mergeSort, List.mem_map, List.mem_filter, hr.slot?_eq_some]
  constructor
  · rintro ⟨⟨n, s⟩, ⟨hmem, hs⟩, rfl⟩
    cases s with
    | loaded i => exact ⟨i, hmem⟩
    | _ => cases hs
  · rintro ⟨i, hmem⟩
    exact ⟨_, ⟨hmem, rfl⟩, rfl⟩

theorem pairwise_loadedNames (hr : r.OnePerName) : r.loadedNames.Pairwise (· < ·) := by
  have hsorted : r.loadedNames.Pairwise fun a b => decide (a ≤ b) = true :=
    List.pairwise_mergeSort (fun a b c => by simpa using le_trans) (fun a b => by simpa using le_total a b) _
  have hnodup : r.loadedNames.Nodup :=
    (List.mergeSort_perm _ _).nodup_iff.2 (List.Nodup.sublist (List.filter_sublist.map _) hr)
  exact hsorted.imp₂ (fun a b hle hne => lt_of_le_of_ne (by simpa using hle) hne) hnodup

theorem Tracks.reflects (ht : Tracks h r) : Reflects h r where
  loaded name := by rw [state_loaded, ht.held_iff]
  failed name message := by
    rw [state_failed]
    grind [ht.failed name]
  unloaded name := by
    rw [state_unloaded, ht.isOpen_iff]
    refine and_congr_right fun hnone => forall_congr' fun e => ?_
    rw [ne_eq, ht.failed]
    grind
  names name := by rw [mem_loadedNames ht.onePerName, ht.held_iff]
  ascending := pairwise_loadedNames ht.onePerName
  repeats := ht.repeats

end

/-- In every run of calls and changes of the store, what callers see of the slots follows from the
answers they were given. The store was asked for a table by the calls for names without an instance,
once by each, and these were answered with what it had. -/
theorem run_reflects {σ : Type} (loadAll : σ → Loader) (store : σ) (actions : List (Action σ)) :
    let s := Session.run loadAll store actions
    actionsOf s.log = actions ∧ Reflects s.answers s.registry ∧ s.machine.loads = missed s.answers ∧
      AnsweredByStore loadAll store s.log := by
  have h := accounts_run loadAll store actions
  exact ⟨h.actions, h.tracks.reflects, h.loads, h.answered⟩

end TypedTables.Registry
