/-
Calls that fail leave no trace that a later call could see. A failed call may mark a slot or take it
out, but fills none; and a slot without an instance is answered like none. So the run without some of
its failed calls answers all others as before, with the same instances (`Same` is the simulation).
Main statement: `failed_calls_transparent`.
-/
import TypedTables.Proofs.Registry.History
import TypedTables.Store.Memory

namespace TypedTables.Registry

open TypedTables.Store TypedTables.Text

section

variable [TableTypes] {r r' : Registry} {name : String} {type : Ty} {loader : Loader} {answer : Answer}

/-! ## Registries that answer alike -/

/-- Two registries that differ in slots without an instance only. -/
structure Same (r r' : Registry) : Prop where
  onePerName : r.OnePerName
  onePerName' : r'.OnePerName
  loaded : ∀ name i, r.slot? name = some (.loaded i) ↔ r'.slot? name = some (.loaded i)
  nextId : r.nextId = r'.nextId

theorem Same.refl (h : r.OnePerName) : Same r r := ⟨h, h, fun _ _ => Iff.rfl, rfl⟩

theorem Same.trans {r₁ r₂ r₃ : Registry} (h : Same r₁ r₂) (h' : Same r₂ r₃) : Same r₁ r₃ :=
  ⟨h.onePerName, h'.onePerName', fun name i => (h.loaded name i).trans (h'.loaded name i),
    h.nextId.trans h'.nextId⟩

theorem Same.isOpen_iff (h : Same r r') : r.IsOpen name ↔ r'.IsOpen name :=
  forall_congr' fun i => not_congr (h.loaded name i)

theorem Same.loadedNames_eq (h : Same r r') : r.loadedNames = r'.loadedNames := by
  refine List.Perm.eq_of_pairwise (fun a b _ _ hab hba => absurd hba (lt_asymm hab))
    (pairwise_loadedNames h.onePerName) (pairwise_loadedNames h.onePerName') ?_
  refine (List.perm_ext_iff_of_nodup ?_ ?_).2 fun name => ?_
  · exact (pairwise_loadedNames h.onePerName).imp ne_of_lt
  · exact (pairwise_loadedNames h.onePerName').imp ne_of_lt
  · rw [mem_loadedNames h.onePerName, mem_loadedNames h.onePerName']
    exact exists_congr fun i => h.loaded name i

theorem Same.afterWrite {r₁ r₂ : Registry} (h : Same r₁ r₂) (name : String) (slot : Option Slot)
    (nextId : Nat) : Same (r₁.afterWrite name slot nextId) (r₂.afterWrite name slot nextId) where
  onePerName := h.onePerName.afterWrite ..
  onePerName' := h.onePerName'.afterWrite ..
  nextId := rfl
  loaded other i := by
    rw [slot?_afterWrite, slot?_afterWrite]
    split_ifs
    · rfl
    · exact h.loaded other i

/-- A slot without an instance may be written with another such, or taken out. -/
theorem same_afterWrite (hr : r.OnePerName) (hopen : r.IsOpen name) {slot : Option Slot}
    (hslot : ∀ i, slot ≠ some (.loaded i)) : Same (r.afterWrite name slot r.nextId) r where
  onePerName := hr.afterWrite ..
  onePerName' := hr
  nextId := rfl
  loaded other i := by
    rw [slot?_afterWrite]
    split_ifs with hname
    · subst hname
      exact iff_of_false (hslot i) (hopen i)
    · rfl

/-- Registries that differ in slots without an instance answer every call alike, and go on to differ
in such slots only. -/
theorem Same.call {r₁ r₂ r₁' : Registry} (h : Same r₁ r₂)
    (hcase : GetCase loader r₁ name type answer r₁') :
    ∃ r₂', GetCase loader r₂ name type answer r₂' ∧ Same r₁' r₂' := by
  cases hcase with
  | held hslot => exact ⟨r₂, .held ((h.loaded ..).1 hslot), h⟩
  | loaded hopen hload =>
    rw [h.nextId]
    exact ⟨_, .loaded (h.isOpen_iff.1 hopen) hload, h.afterWrite ..⟩
  | missing hopen hload =>
    rw [h.nextId]
    exact ⟨_, .missing (h.isOpen_iff.1 hopen) hload, h.afterWrite ..⟩
  | failed hopen hload hfound =>
    rw [h.nextId]
    exact ⟨_, .failed (h.isOpen_iff.1 hopen) hload hfound, h.afterWrite ..⟩

/-- A call that fails fills no slot. -/
theorem GetCase.same_of_error (hcase : GetCase loader r name type answer r') (hr : r.OnePerName)
    (herror : ∀ i, answer ≠ .ok i) : Same r' r := by
  cases hcase with
  | held => exact .refl hr
  | loaded => exact absurd rfl (herror _)
  | missing hopen => exact same_afterWrite hr hopen (by simp)
  | failed hopen => exact same_afterWrite hr hopen (by simp)

/-! ## Runs without some failed calls -/

variable {σ : Type}

/-- A log without some of its failed calls. -/
inductive Thins : List (Entry σ) → List (Entry σ) → Prop where
  | nil : Thins [] []
  | keep (x : Entry σ) {log kept : List (Entry σ)} (h : Thins log kept) : Thins (x :: log) (x :: kept)
  | drop (c : Call) (e : LoadError) {log kept : List (Entry σ)} (h : Thins log kept) :
      Thins (.answered c (.error e) :: log) kept

/-- The run of the kept actions alone logs what was kept, and ends with slots that differ from those of
the whole run where no instance is only. -/
structure Replays (s s' : Session σ) (kept : List (Entry σ)) : Prop where
  log : s'.log = kept
  store : s'.machine.store = s.machine.store
  registry : Same s.registry s'.registry

theorem replays_of_thins (loadAll : σ → Loader) (store : σ) (actions : List (Action σ)) :
    ∀ {kept : List (Entry σ)}, Thins (Session.run loadAll store actions).log kept →
      Replays (Session.run loadAll store actions) (Session.run loadAll store (actionsOf kept)) kept := by
  induction actions using List.reverseRecOn with
  | nil =>
    intro kept h
    cases h
    exact ⟨rfl, rfl, .refl onePerName_empty⟩
  | append_singleton actions a ih =>
    intro kept h
    have hrests := Session.rests_run loadAll store actions
    rw [Session.run_append_singleton] at h ⊢
    generalize Session.run loadAll store actions = s at ih h hrests ⊢
    cases a with
    | change f =>
      cases h with
      | keep _ h =>
        obtain ⟨hlog, hstore, hsame⟩ := ih h
        rw [actionsOf_cons, Session.run_append_singleton]
        exact ⟨congrArg _ hlog, congrArg f hstore, hsame⟩
    | call c =>
      obtain ⟨answer, hcalled⟩ := Session.act_call hrests loadAll c
      generalize s.act loadAll (.call c) = t at h hcalled ⊢
      rw [hcalled.log] at h
      cases h with
      | @keep _ _ kept h =>
        obtain ⟨hlog, hstore, hsame⟩ := ih h
        have hrests' := Session.rests_run loadAll store (actionsOf kept)
        rw [actionsOf_cons, Session.run_append_singleton, Entry.action]
        generalize Session.run loadAll store (actionsOf kept) = s' at hlog hstore hsame hrests' ⊢
        obtain ⟨answer', hcalled'⟩ := Session.act_call hrests' loadAll c
        -- the call is answered alike from both registries, and leaves both alike
        obtain ⟨r, hcase, hsame'⟩ := hsame.call hcalled.slots
        rw [← hstore] at hcase
        obtain ⟨rfl, hr⟩ := Prod.mk.inj (hcase.get_eq.symm.trans hcalled'.slots.get_eq)
        rw [hr] at hsame'
        refine ⟨?_, ?_, hsame'⟩
        · rw [hcalled'.log, hlog]
        · rw [hcalled'.alone.store, hcalled.alone.store, hstore]
      | drop _ e h =>
        -- what the dropped call changed is not seen, so the run goes on without it
        obtain ⟨hlog, hstore, hsame⟩ := ih h
        have hdropped := hcalled.slots.same_of_error hsame.onePerName fun i hi => by cases hi
        exact ⟨hlog, hstore.trans hcalled.alone.store.symm, hdropped.trans hsame⟩

/-- What is left of the map after a call that finds nothing stored: no entry of its name, and the entries
of all other names with their slots as they were. -/
structure NothingLeft (m : Machine σ) (name : String) (m' : Machine σ) : Prop where
  gone : ∀ s, (name, s) ∉ m'.names
  others : ∀ n, n.1 ≠ name → (n ∈ m'.names ↔ n ∈ m.names)
  slots : ∀ n ∈ m.names, n.1 ≠ name → m'.cells[n.2]? = m.cells[n.2]?

/-- Leaving out any of the calls that failed in a run changes no answer to the other calls and no
name that is loaded in the end. A call that finds nothing stored, made after any run, leaves no slot
for its name and all other slots as they were. -/
theorem failed_calls_transparent (loadAll : σ → Loader) (store : σ) (actions : List (Action σ))
    {kept : List (Entry σ)} (h : Thins (Session.run loadAll store actions).log kept) :
    (Session.run loadAll store (actionsOf kept)).log = kept ∧
      (Session.run loadAll store (actionsOf kept)).registry.loadedNames =
        (Session.run loadAll store actions).registry.loadedNames ∧
      ∀ c n, ((Session.run loadAll store actions).machine.callAll loadAll [c]).answers =
          [(c, .error (.notFound n))] →
        NothingLeft (Session.run loadAll store actions).machine c.name
          ((Session.run loadAll store actions).machine.callAll loadAll [c]) := by
  obtain ⟨hlog, -, hsame⟩ := replays_of_thins loadAll store actions h
  refine ⟨hlog, hsame.loadedNames_eq.symm, ?_⟩
  intro c n hanswers
  have halone := (Session.rests_run loadAll store actions).callAll_singleton loadAll c
  rw [halone.answers, List.singleton_inj, Prod.mk.injEq] at hanswers
  exact ⟨halone.missing n hanswers.2, halone.others, halone.cells⟩

/-- Whether a call of the log failed. -/
def Entry.isFailure : Entry σ → Bool
  | .answered _ (.error _) => true
  | _ => false

theorem thins_filter : ∀ log : List (Entry σ), Thins log (log.filter fun x => !x.isFailure)
  | [] => .nil
  | .answered c (.error e) :: log => .drop c e (thins_filter log)
  | .answered _ (.ok _) :: log => .keep _ (thins_filter log)
  | .changed _ :: log => .keep _ (thins_filter log)

end

/-- A name is missing, then no table, then stored twice and then found, after which it is asked for as
another type. -/
def troubledActions : List (Action Memory) :=
  [.call ⟨"A", .dynamic⟩, .change fun m => m.addCopy "A" (Utf8.encode "?"), .call ⟨"A", .dynamic⟩,
    .change fun m => m.addCopy "A" (Utf8.encode "?"), .call ⟨"A", .dynamic⟩,
    .change fun m => (m.delete "A").addCopy "A" (Utf8.encode "\x7b\"records\":[]\x7d"),
    .call ⟨"A", .dynamic⟩, .call ⟨"A", .items⟩,
    .change fun m => m.addCopy "B" (Utf8.encode "\x7b\"records\":[]\x7d"),
    .call ⟨"B", .items⟩, .call ⟨"A", .dynamic⟩]

/-- Without its four failed calls the run answers the other three alike, two of them with one instance. -/
theorem troubledActions_transparent : ∃ kept,
    Thins (Session.run memoryStore.loadAll Memory.empty troubledActions).log kept ∧
      (Session.run memoryStore.loadAll Memory.empty troubledActions).log.length = kept.length + 4 ∧
      (kept.filterMap fun x => x.answer?.bind fun a => a.2.toOption.map Instance.id) = [0, 1, 0] ∧
      (Session.run memoryStore.loadAll Memory.empty (actionsOf kept)).log = kept ∧
      (Session.run memoryStore.loadAll Memory.empty (actionsOf kept)).registry.loadedNames =
        (Session.run memoryStore.loadAll Memory.empty troubledActions).registry.loadedNames := by
  have hthins := thins_filter (Session.run memoryStore.loadAll Memory.empty troubledActions).log
  obtain ⟨hlog, hnames, -⟩ := failed_calls_transparent _ _ troubledActions hthins
  exact ⟨_, hthins, by decide +kernel, by decide +kernel, hlog, hnames⟩

end TypedTables.Registry
