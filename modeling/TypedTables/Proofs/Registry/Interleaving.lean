/-
Runs of overlapping calls with a store that changes in between. Whatever the order of the steps, all
calls that get a table under one name get the same instance, a name is loaded by one thread at a
time and never again once it has an instance, and the threads do not block each other for good.
Main statement: `interleaved_calls`.
-/
import TypedTables.Proofs.Registry.Steps
import TypedTables.Store.Memory

namespace TypedTables.Registry

open TypedTables.Store TypedTables.Text

/-! ## Runs -/

/-- What happens next: a thread takes a step, or the objects in the store are changed by someone
else, such as one who creates, deletes or copies objects. -/
inductive Event (σ : Type) where
  | thread (t : Nat)
  | store (change : σ → σ)

namespace Machine

section

variable [TableTypes] {σ : Type}

/-- The machine after an event; `none` if the thread cannot step. -/
def after? (loadAll : σ → Loader) (m : Machine σ) : Event σ → Option (Machine σ)
  | .thread t => step? loadAll m t
  | .store change => some { m with store := change m.store }

def afterAll? (loadAll : σ → Loader) (m : Machine σ) : List (Event σ) → Option (Machine σ)
  | [] => some m
  | e :: events => (after? loadAll m e).bind fun m => afterAll? loadAll m events

/-- Some thread was answered a call for the name with the instance. -/
def Answered (m : Machine σ) (name : String) (i : Instance) : Prop :=
  ∃ th ∈ m.threads, ∃ call : Call, call.name = name ∧ (call, .ok i) ∈ th.answers

/-- The thread is asking the store for the objects of the name. -/
def IsLoading (m : Machine σ) (t : Nat) (name : String) : Prop :=
  ∃ th call rest s, m.threads[t]? = some th ∧ th.calls = call :: rest ∧ call.name = name ∧
    th.phase = .loading s

variable {loadAll : σ → Loader} {m m' : Machine σ}

/-! ## What runs keep -/

theorem inv_ofRegistry_empty (store : σ) (calls : List (List Call)) :
    (ofRegistry store Registry.empty calls).Inv where
  keys := List.nodup_nil
  slots n hn := by cases hn
  threads t th h := by
    simp only [ofRegistry, List.getElem?_map] at h
    obtain ⟨cs, -, rfl⟩ := Option.map_eq_some_iff.1 h
    exact ⟨fun _ _ _ => trivial, fun _ => rfl, fun _ _ h => by cases h⟩
  mapLock t := by
    simp only [ofRegistry, holdsMap, List.getElem?_map]
    cases calls[t]? <;> simp [Phase.holdsMap]
  slotLock s t := by
    simp only [ofRegistry, holderOf?, held?, List.getElem?_map]
    cases calls[t]? <;> simp [Registry.empty, Phase.held?]

theorem after_advances {e : Event σ} (hI : m.Inv) (h : after? loadAll m e = some m') :
    m.Advances m' := by
  cases e with
  | thread t => exact step_advances hI h
  | store change =>
    cases h
    have hk (w : Option Nat) : Kept m { m with store := change m.store } w :=
      .of_eq w (fun _ => rfl) rfl
    have hthreads (t : Nat) (th : Thread) (hth : m.threads[t]? = some th) :
        ThreadOk { m with store := change m.store } th :=
      (hI.threads t th hth).kept (hk none) fun s hs => by cases hs
    exact ⟨⟨hI.keys, hI.slots, hthreads, hI.mapLock, hI.slotLock⟩, (hk none).holds⟩

theorem afterAll_advances : ∀ {events : List (Event σ)} {m : Machine σ}, m.Inv →
    afterAll? loadAll m events = some m' → m.Advances m'
  | [], _, hI, h => by cases h; exact ⟨hI, fun _ _ h => h⟩
  | e :: events, m, hI, h => by
    obtain ⟨m₁, h₁, h⟩ := Option.bind_eq_some_iff.1 h
    have ha := after_advances hI h₁
    have hb := afterAll_advances ha.inv h
    exact ⟨hb.inv, fun name i hi => hb.holds name i (ha.holds name i hi)⟩

theorem after_loads {e : Event σ} (hI : m.Inv) (h : after? loadAll m e = some m') {name : String}
    {i : Instance} (hi : m.Holds name i) : m'.loads.count name = m.loads.count name := by
  cases e with
  | thread t =>
    rcases step_loads hI h with h | ⟨other, s, hv, h⟩
    · rw [h]
    · rw [h, List.count_cons_of_ne]
      rintro rfl
      exact hI.not_holds_of_vacant hv hi
  | store change => cases h; rfl

theorem afterAll_loads {name : String} {i : Instance} : ∀ {events : List (Event σ)} {m : Machine σ},
    m.Inv → afterAll? loadAll m events = some m' → m.Holds name i →
      m'.loads.count name = m.loads.count name
  | [], _, _, h, _ => by cases h; rfl
  | e :: events, m, hI, h, hi => by
    obtain ⟨m₁, h₁, h⟩ := Option.bind_eq_some_iff.1 h
    have ha := after_advances hI h₁
    rw [afterAll_loads ha.inv h (ha.holds name i hi), after_loads hI h₁ hi]

theorem Inv.holds_of_answered (hI : m.Inv) {name : String} {i : Instance} (h : m.Answered name i) :
    m.Holds name i := by
  obtain ⟨th, hth, call, rfl, ha⟩ := h
  obtain ⟨t, ht⟩ := List.mem_iff_getElem?.1 hth
  exact (hI.threads t th ht).answers call i ha

/-! ## Waiting -/

theorem Inv.loading_unique (hI : m.Inv) {t u : Nat} {name : String} (ht : m.IsLoading t name)
    (hu : m.IsLoading u name) : t = u := by
  obtain ⟨th, call, rest, s, hth, hc, rfl, hp⟩ := ht
  obtain ⟨th', call', rest', s', hth', hc', hn, hp'⟩ := hu
  obtain ⟨hs, -⟩ : m.Vacant call.name s := hI.phaseOk hth hc hp
  obtain ⟨hs', -⟩ : m.Vacant call'.name s' := hI.phaseOk hth' hc' hp'
  cases hI.slot_unique hs (hn ▸ hs')
  -- both hold the lock of this slot
  have hm := (hI.slotLock s t).2 (by rw [held?_of_threads hth, hp]; rfl)
  rw [(hI.slotLock s u).2 (by rw [held?_of_threads hth', hp']; rfl)] at hm
  exact (Option.some.inj hm).symm

/-- The phases that wait for no lock once the lock of the map is free. -/
theorem stepCall_isSome {t : Nat} {call : Call} (hf : m.mapHolder = none) :
    ∀ {p : Phase}, (∀ s, p ≠ .waiting s) → (stepCall loadAll m t call p).isSome
  | .start, _ | .discarding _, _ => by simp [stepCall, mapFree, hf]
  | .inMap, _ | .loading _, _ | .discardingInMap _, _ | .leaving _ none, _
  | .leaving _ (some _), _ => rfl
  | .inSlot s, _ => by simp only [stepCall]; split <;> rfl
  | .waiting s, h => absurd rfl (h s)

theorem Inv.step?_eq (hI : m.Inv) {t : Nat} {th : Thread} (hth : m.threads[t]? = some th)
    (hp : th.phase ≠ .start) :
    ∃ call, step? loadAll m t = stepCall loadAll m t call th.phase := by
  obtain ⟨calls, phase, answers⟩ := th
  cases calls with
  | nil => exact absurd ((hI.threads t _ hth).idle rfl) hp
  | cons call rest => exact ⟨call, by unfold step?; rw [hth]⟩

theorem Inv.step_of_mapHolder (hI : m.Inv) {t : Nat} (h : m.mapHolder = some t) :
    (step? loadAll m t).isSome := by
  have hm := (hI.mapLock t).1 h
  unfold holdsMap at hm
  obtain ⟨th, hth, hh⟩ := (Option.any_eq_true _ _).1 hm
  obtain ⟨call, hs⟩ : ∃ call, step? loadAll m t = stepCall loadAll m t call th.phase :=
    hI.step?_eq hth fun hp => by rw [hp] at hh; cases hh
  rw [hs]
  cases hp : th.phase <;> rw [hp] at hh <;> first | rfl | cases hh

/-- The thread that holds the lock of a slot can step when the lock of the map is free. -/
theorem Inv.step_of_holder (hI : m.Inv) (hf : m.mapHolder = none) {s t : Nat}
    (h : m.holderOf? s = some t) : (step? loadAll m t).isSome := by
  have hh := (hI.slotLock s t).1 h
  unfold held? at hh
  obtain ⟨th, hth, hh⟩ := Option.bind_eq_some_iff.1 hh
  obtain ⟨call, hs⟩ : ∃ call, step? loadAll m t = stepCall loadAll m t call th.phase :=
    hI.step?_eq hth fun hp => by rw [hp] at hh; cases hh
  rw [hs]
  exact stepCall_isSome hf fun r hp => by rw [hp] at hh; cases hh

theorem Inv.cell_of_refers (hI : m.Inv) {name : String} {s : Nat} (h : m.Refers name s) :
    ∃ c, m.cells[s]? = some c := by
  have hx : (m.slotAt? s).isSome := by
    rcases h with h | h
    · exact hI.slots _ h
    · rw [h]; rfl
  obtain ⟨x, hx⟩ := Option.isSome_iff_exists.1 hx
  obtain ⟨c, hc, -⟩ := Option.map_eq_some_iff.1 hx
  exact ⟨c, hc⟩

/-- Some thread can step unless all calls are answered: the holder of the map's lock, or else that
of the lock of a slot that is waited for, or else any thread with a call. -/
theorem Inv.exists_step (hI : m.Inv) (h : m.isDone = false) :
    ∃ t, (step? loadAll m t).isSome := by
  cases hf : m.mapHolder with
  | some t => exact ⟨t, hI.step_of_mapHolder hf⟩
  | none =>
    unfold isDone at h
    obtain ⟨th, hmem, hcalls⟩ := List.all_eq_false.1 h
    obtain ⟨t, hth⟩ := List.mem_iff_getElem?.1 hmem
    obtain ⟨calls, phase, answers⟩ := th
    cases calls with
    | nil => exact absurd rfl hcalls
    | cons call rest =>
      have hs : step? loadAll m t = stepCall loadAll m t call phase := by unfold step?; rw [hth]
      by_cases hw : ∃ s, phase = .waiting s
      · -- the lock that the thread waits for is free, or its holder can step
        obtain ⟨s, rfl⟩ := hw
        cases ho : m.holderOf? s with
        | some u => exact ⟨u, hI.step_of_holder hf ho⟩
        | none =>
          have hrefers : m.Refers call.name s := hI.phaseOk hth rfl rfl
          obtain ⟨⟨x, holder⟩, hcell⟩ := hI.cell_of_refers hrefers
          have hfree : holder = none := by rw [holderOf?, hcell] at ho; exact ho
          exact ⟨t, by rw [hs]; simp only [stepCall, hcell, hfree]; rfl⟩
      · exact ⟨t, by rw [hs]; exact stepCall_isSome hf fun s hp => hw ⟨s, hp⟩⟩

/-! ## All runs -/

/-- For tables of any types, any calls of any threads, any store and any order of events: the calls that
get a table under one name, now or later, get one instance; no two threads load one name at a time; a name that
was answered with an instance is not loaded later; and while a call is not answered some thread can
step. -/
theorem interleaved_calls (loadAll : σ → Loader) (store : σ) (calls : List (List Call))
    (events : List (Event σ)) (m : Machine σ)
    (h : afterAll? loadAll (ofRegistry store Registry.empty calls) events = some m) :
    (∀ later m', afterAll? loadAll m later = some m' →
      ∀ name i, m.Answered name i →
        (∀ j, m'.Answered name j → i = j) ∧ m'.loads.count name = m.loads.count name) ∧
    (∀ t u name, m.IsLoading t name → m.IsLoading u name → t = u) ∧
    (m.isDone = false → ∃ t, (step? loadAll m t).isSome) := by
  have hI : m.Inv := (afterAll_advances (inv_ofRegistry_empty store calls) h).inv
  refine ⟨?_, fun t u name => hI.loading_unique, hI.exists_step⟩
  intro later m' h' name i hi
  have hholds : m.Holds name i := hI.holds_of_answered hi
  constructor
  · intro j hj
    have ha := afterAll_advances hI h'
    exact ha.inv.holds_unique (ha.holds name i hholds) (ha.inv.holds_of_answered hj)
  · exact afterAll_loads hI h' hholds

end

/-- Steps of one thread. -/
def steps (t n : Nat) : List (Event Memory) := List.replicate n (.thread t)

/-- Two threads ask for one name while nothing is stored: the first discards the slot that the
second waits for, then an object is created, and the second makes and loads another slot. -/
def discardRace : List (Event Memory) :=
  steps 0 5 ++ steps 1 2 ++ steps 0 3 ++
    [.store fun m => m.addCopy "Items" (Utf8.encode "\x7b\"records\":[]\x7d")] ++ steps 1 9 ++ steps 0 5

/-- In the race both threads get a table in the end, after two loads, and it is one instance. -/
theorem discardRace_one_instance :
    ∃ m, afterAll? memoryStore.loadAll (ofRegistry Memory.empty Registry.empty
        [[⟨"Items", .dynamic⟩, ⟨"Items", .dynamic⟩], [⟨"Items", .dynamic⟩]]) discardRace = some m ∧
      (m.isDone && m.threads.all fun th => th.answers.any fun a => a.2.toOption.isSome) = true ∧
      m.loads.count "Items" = 2 ∧
      ∀ i j, m.Answered "Items" i → m.Answered "Items" j → i = j := by
  have hrun : ((afterAll? memoryStore.loadAll (ofRegistry Memory.empty Registry.empty
      [[⟨"Items", .dynamic⟩, ⟨"Items", .dynamic⟩], [⟨"Items", .dynamic⟩]]) discardRace).any fun m =>
      (m.isDone && m.threads.all fun th => th.answers.any fun a => a.2.toOption.isSome) &&
        m.loads.count "Items" == 2) = true := by
    decide +kernel
  obtain ⟨m, hm, hend⟩ := (Option.any_eq_true _ _).1 hrun
  rw [Bool.and_eq_true, beq_iff_eq] at hend
  refine ⟨m, hm, hend.1, hend.2, ?_⟩
  intro i j hi hj
  exact ((interleaved_calls _ _ _ _ m hm).1 [] m rfl "Items" i hi).1 j hj

end Machine

end TypedTables.Registry
