/-
The invariant of overlapping calls. A lock is held by exactly the thread whose phase says so; a
slot that a thread refers to is that of its name or discarded; a slot that a thread loads is that
of its name and not filled yet; and an instance that was answered stays in the slot of its name.

A step writes at most the slot whose lock its thread holds (`Kept`), so what the other threads rely
on survives it, and `Inv.setPhase` leaves for each step only what its own thread relies on.
-/
import TypedTables.Registry.Machine
import Mathlib.Tactic

namespace TypedTables.Registry

variable [TableTypes]

/-! ## What a phase holds -/

/-- Whether a thread in this phase holds the lock of the map. -/
def Phase.holdsMap : Phase → Bool
  | .inMap | .discardingInMap _ => true
  | _ => false

/-- The slot whose lock a thread in this phase holds. -/
def Phase.held? : Phase → Option Nat
  | .inSlot s | .loading s | .discarding s | .discardingInMap s | .leaving s _ => some s
  | _ => none

/-- A slot that a load may write: neither filled nor discarded. -/
def Slot.isOpen : Slot → Bool
  | .unloaded | .failed _ => true
  | _ => false

namespace Machine

variable {σ : Type}

/-! ## Views of a machine -/

def slotAt? (m : Machine σ) (s : Nat) : Option Slot := m.cells[s]?.map Cell.slot

def holderOf? (m : Machine σ) (s : Nat) : Option Nat := m.cells[s]?.bind Cell.holder

/-- Whether the phase of a thread says that it holds the lock of the map. -/
def holdsMap (m : Machine σ) (t : Nat) : Bool := m.threads[t]?.any fun th => th.phase.holdsMap

/-- The slot whose lock a thread holds by its phase. -/
def held? (m : Machine σ) (t : Nat) : Option Nat := m.threads[t]?.bind fun th => th.phase.held?

section Views

variable (m : Machine σ) (t u s r : Nat)

theorem slotAt?_setHolder (h : Option Nat) : (m.setHolder s h).slotAt? r = m.slotAt? r := by
  simp only [slotAt?, setHolder, List.getElem?_modify]
  split <;> cases m.cells[r]? <;> rfl

theorem holderOf?_setSlot (x : Slot) : (m.setSlot s x).holderOf? r = m.holderOf? r := by
  simp only [holderOf?, setSlot, List.getElem?_modify]
  split <;> cases m.cells[r]? <;> rfl

theorem slotAt?_setSlot (x : Slot) :
    (m.setSlot s x).slotAt? r = if s = r then (m.slotAt? r).map fun _ => x else m.slotAt? r := by
  simp only [slotAt?, setSlot, List.getElem?_modify]
  split <;> cases m.cells[r]? <;> rfl

theorem holderOf?_setHolder (h : Option Nat) :
    (m.setHolder s h).holderOf? r =
      if s = r then (m.slotAt? r).bind fun _ => h else m.holderOf? r := by
  simp only [holderOf?, slotAt?, setHolder, List.getElem?_modify]
  split <;> cases m.cells[r]? <;> rfl

theorem holdsMap_of_threads {m : Machine σ} {t : Nat} {th : Thread} (h : m.threads[t]? = some th) :
    m.holdsMap t = th.phase.holdsMap := by
  simp [holdsMap, h]

theorem held?_of_threads {m : Machine σ} {t : Nat} {th : Thread} (h : m.threads[t]? = some th) :
    m.held? t = th.phase.held? := by
  simp [held?, h]

end Views

/-! ## What threads rely on -/

/-- The slot is that of the name or discarded. -/
def Refers (m : Machine σ) (name : String) (s : Nat) : Prop :=
  (name, s) ∈ m.names ∨ m.slotAt? s = some .discarded

theorem Refers.mem {m : Machine σ} {name : String} {s : Nat} (h : m.Refers name s)
    (hs : m.slotAt? s ≠ some .discarded) : (name, s) ∈ m.names := h.resolve_right hs

/-- The slot is that of the name, and a load may write it. -/
def Vacant (m : Machine σ) (name : String) (s : Nat) : Prop :=
  (name, s) ∈ m.names ∧ ∃ x, m.slotAt? s = some x ∧ x.isOpen = true

/-- The instance stands in the slot of the name. -/
def Holds (m : Machine σ) (name : String) (i : Instance) : Prop :=
  ∃ s, (name, s) ∈ m.names ∧ m.slotAt? s = some (.loaded i)

/-- What a thread in a call for `name` relies on in each phase. -/
def PhaseOk (m : Machine σ) (name : String) : Phase → Prop
  | .start | .inMap => True
  | .waiting s | .inSlot s => m.Refers name s
  | .loading s => m.Vacant name s
  | .discarding s | .discardingInMap s => m.slotAt? s = some .discarded
  | .leaving _ (some (.ok i)) => m.Holds name i
  | .leaving _ _ => True

/-- What holds of each thread: its phase may be relied on, it rests once its calls are answered, and
the instances that it was answered stay those of their names. -/
structure ThreadOk (m : Machine σ) (th : Thread) : Prop where
  phase : ∀ call rest, th.calls = call :: rest → m.PhaseOk call.name th.phase
  idle : th.calls = [] → th.phase = .start
  answers : ∀ call i, (call, .ok i) ∈ th.answers → m.Holds call.name i

/-- The invariant of the machine. -/
structure Inv (m : Machine σ) : Prop where
  keys : (m.names.map Prod.fst).Nodup
  slots : ∀ n ∈ m.names, (m.slotAt? n.2).isSome
  threads : ∀ (t : Nat) (th : Thread), m.threads[t]? = some th → m.ThreadOk th
  mapLock : ∀ t, m.mapHolder = some t ↔ m.holdsMap t = true
  slotLock : ∀ s t, m.holderOf? s = some t ↔ m.held? t = some s

/-- What a thread relies on in its phase. -/
theorem Inv.phaseOk {m : Machine σ} (hI : m.Inv) {t : Nat} {th : Thread} {call : Call}
    {rest : List Call} (hth : m.threads[t]? = some th) (hc : th.calls = call :: rest) {p : Phase}
    (hp : th.phase = p) : m.PhaseOk call.name p :=
  hp ▸ (hI.threads t th hth).phase call rest hc

theorem Inv.slot_unique {m : Machine σ} (hI : m.Inv) {name : String} {s r : Nat}
    (hs : (name, s) ∈ m.names) (hr : (name, r) ∈ m.names) : s = r :=
  (Prod.mk.inj (List.inj_on_of_nodup_map hI.keys hs hr rfl)).2

theorem Inv.not_holds_of_vacant {m : Machine σ} (hI : m.Inv) {name : String} {s : Nat}
    {i : Instance} (hv : m.Vacant name s) : ¬ m.Holds name i := by
  rintro ⟨r, hr, hl⟩
  obtain ⟨hs, x, hx, ho⟩ := hv
  cases hI.slot_unique hs hr
  rw [hx] at hl
  cases hl; cases ho

theorem Inv.holds_unique {m : Machine σ} (hI : m.Inv) {name : String} {i j : Instance}
    (hi : m.Holds name i) (hj : m.Holds name j) : i = j := by
  obtain ⟨s, hs, hl⟩ := hi
  obtain ⟨r, hr, hl'⟩ := hj
  cases hI.slot_unique hs hr
  rw [hl] at hl'; cases hl'; rfl

/-! ## What a step keeps -/

/-- What the machine after a step keeps of the one before it when the step may write slot `w`. -/
structure Kept (m m' : Machine σ) (w : Option Nat) : Prop where
  refers : ∀ name s, m.Refers name s → m'.Refers name s
  vacant : ∀ name s, w ≠ some s → m.Vacant name s → m'.Vacant name s
  discarded : ∀ s, m.slotAt? s = some .discarded → m'.slotAt? s = some .discarded
  holds : ∀ name i, m.Holds name i → m'.Holds name i

/-- A phase that does not hold the written slot may still be relied on. -/
theorem PhaseOk.kept {m m' : Machine σ} {w : Option Nat} (hk : Kept m m' w) {name : String} :
    ∀ {p : Phase}, (∀ s, w = some s → p.held? ≠ some s) → m.PhaseOk name p → m'.PhaseOk name p
  | .start, _, _ | .inMap, _, _ | .leaving _ none, _, _ | .leaving _ (some (.error _)), _, _ => trivial
  | .waiting _, _, h | .inSlot _, _, h => hk.refers _ _ h
  | .loading s, hw, h => hk.vacant _ _ (fun hs => hw s hs rfl) h
  | .discarding _, _, h | .discardingInMap _, _, h => hk.discarded _ h
  | .leaving _ (some (.ok _)), _, h => hk.holds _ _ h

theorem ThreadOk.kept {m m' : Machine σ} {w : Option Nat} (hk : Kept m m' w) {th : Thread}
    (hw : ∀ s, w = some s → th.phase.held? ≠ some s) (h : m.ThreadOk th) : m'.ThreadOk th :=
  ⟨fun call rest hc => (h.phase call rest hc).kept hk hw, h.idle,
    fun call i hi => hk.holds _ _ (h.answers call i hi)⟩

/-- Nothing is lost when all slots stay and names leave the map only for discarded slots. -/
theorem Kept.of_slots {m m' : Machine σ} (w : Option Nat)
    (hs : ∀ s x, m.slotAt? s = some x → m'.slotAt? s = some x)
    (hn : ∀ n ∈ m.names, n ∈ m'.names ∨ m.slotAt? n.2 = some .discarded) : Kept m m' w where
  refers name s h := by
    rcases h with h | h
    · exact (hn _ h).imp_right fun h => hs _ _ h
    · exact .inr (hs _ _ h)
  vacant name s _ h := by
    obtain ⟨h, x, hx, ho⟩ := h
    rcases hn _ h with h | h
    · exact ⟨h, x, hs _ _ hx, ho⟩
    · rw [hx] at h; cases h; cases ho
  discarded s h := hs _ _ h
  holds name i h := by
    obtain ⟨s, h, hl⟩ := h
    rcases hn _ h with h | h
    · exact ⟨s, h, hs _ _ hl⟩
    · rw [hl] at h; cases h

theorem Kept.of_eq {m m' : Machine σ} (w : Option Nat) (hs : ∀ s, m'.slotAt? s = m.slotAt? s)
    (hn : m'.names = m.names) : Kept m m' w := by
  refine .of_slots w ?_ ?_
  · intro s x hx
    rw [hs]; exact hx
  · intro n h
    rw [hn]; exact .inl h

/-- Nothing is lost when only an open slot is written. -/
theorem Kept.of_write {m m' : Machine σ} {s : Nat} {x y : Slot} (hx : m.slotAt? s = some x)
    (ho : x.isOpen = true) (hn : m'.names = m.names)
    (hs : ∀ r, m'.slotAt? r = if s = r then some y else m.slotAt? r) : Kept m m' (some s) where
  refers name r h := by
    rcases h with h | h
    · exact .inl (by rw [hn]; exact h)
    · refine .inr ?_
      rw [hs, if_neg]
      · exact h
      · rintro rfl; rw [hx] at h; cases h; cases ho
  vacant name r hr h := by
    obtain ⟨h, z, hz, hzo⟩ := h
    exact ⟨by rw [hn]; exact h, z, by rw [hs, if_neg (fun e => hr (congrArg some e))]; exact hz, hzo⟩
  discarded r h := by
    rw [hs, if_neg]
    · exact h
    · rintro rfl; rw [hx] at h; cases h; cases ho
  holds name i h := by
    obtain ⟨r, h, hl⟩ := h
    refine ⟨r, by rw [hn]; exact h, ?_⟩
    rw [hs, if_neg]
    · exact hl
    · rintro rfl; rw [hx] at hl; cases hl; cases ho

/-! ## What a step changes -/

/-- The locks after a step of thread `t` are those that its new phase `p` says. -/
structure LocksMoved (m m' : Machine σ) (t : Nat) (p : Phase) : Prop where
  map : ∀ u, m'.mapHolder = some u ↔ if u = t then p.holdsMap = true else m.holdsMap u = true
  slot : ∀ s u, m'.holderOf? s = some u ↔ if u = t then p.held? = some s else m.held? u = some s

section Locks

variable {m m' : Machine σ} {t : Nat} {th : Thread} {p : Phase}

theorem map_left (hI : m.Inv) (hth : m.threads[t]? = some th) (h : m'.mapHolder = m.mapHolder)
    (hp : p.holdsMap = th.phase.holdsMap) (u : Nat) :
    m'.mapHolder = some u ↔ if u = t then p.holdsMap = true else m.holdsMap u = true := by
  rw [h, hI.mapLock]
  split
  · rename_i hu; subst hu; rw [holdsMap_of_threads hth, hp]
  · rfl

theorem map_taken (hI : m.Inv) (hf : m.mapHolder = none) (h : m'.mapHolder = some t)
    (hp : p.holdsMap = true) (u : Nat) :
    m'.mapHolder = some u ↔ if u = t then p.holdsMap = true else m.holdsMap u = true := by
  rw [h, Option.some.injEq, ← hI.mapLock, hf]
  split
  · rename_i hu; subst hu; simp [hp]
  · rename_i hu; simpa using Ne.symm hu

theorem map_given (hI : m.Inv) (hth : m.threads[t]? = some th) (ho : th.phase.holdsMap = true)
    (h : m'.mapHolder = none) (hp : p.holdsMap = false) (u : Nat) :
    m'.mapHolder = some u ↔ if u = t then p.holdsMap = true else m.holdsMap u = true := by
  have ht : m.mapHolder = some t := (hI.mapLock t).2 (by rw [holdsMap_of_threads hth, ho])
  rw [h, ← hI.mapLock, ht, hp]
  split
  · simp
  · rename_i hu; simpa using Ne.symm hu

theorem slot_left (hI : m.Inv) (hth : m.threads[t]? = some th)
    (h : ∀ s, m'.holderOf? s = m.holderOf? s) (hp : p.held? = th.phase.held?) (s u : Nat) :
    m'.holderOf? s = some u ↔ if u = t then p.held? = some s else m.held? u = some s := by
  rw [h, hI.slotLock]
  split
  · rename_i hu; subst hu; rw [held?_of_threads hth, hp]
  · rfl

theorem slot_taken (hI : m.Inv) (hth : m.threads[t]? = some th) {r : Nat}
    (hf : m.holderOf? r = none) (hn : th.phase.held? = none)
    (h : ∀ s, m'.holderOf? s = if r = s then some t else m.holderOf? s) (hp : p.held? = some r)
    (s u : Nat) :
    m'.holderOf? s = some u ↔ if u = t then p.held? = some s else m.held? u = some s := by
  rw [h, hp, ← hI.slotLock]
  by_cases hs : r = s
  · subst hs
    rw [hf]
    by_cases hu : u = t
    · simp [hu]
    · simpa [hu] using Ne.symm hu
  · rw [if_neg hs]
    split
    · rename_i hu; subst hu; rw [hI.slotLock, held?_of_threads hth, hn]; simp [hs]
    · rfl

theorem slot_given (hI : m.Inv) (hth : m.threads[t]? = some th) {r : Nat}
    (ho : th.phase.held? = some r) (h : ∀ s, m'.holderOf? s = if r = s then none else m.holderOf? s)
    (hp : p.held? = none) (s u : Nat) :
    m'.holderOf? s = some u ↔ if u = t then p.held? = some s else m.held? u = some s := by
  have ht : m.holderOf? r = some t := (hI.slotLock r t).2 (by rw [held?_of_threads hth, ho])
  rw [h, hp, ← hI.slotLock]
  by_cases hs : r = s
  · subst hs
    rw [ht]
    by_cases hu : u = t
    · simp [hu]
    · simpa [hu] using Ne.symm hu
  · rw [if_neg hs]
    split
    · rename_i hu; subst hu; rw [hI.slotLock, held?_of_threads hth, ho]; simp [hs]
    · rfl

/-- A step that keeps the invariant and takes no instance from its name. -/
structure Advances (m m' : Machine σ) : Prop where
  inv : m'.Inv
  holds : ∀ name i, m.Holds name i → m'.Holds name i

/-- A step that replaces thread `t` keeps the invariant when the new thread may rely on what it
does, the locks have moved as its phase says, and only its own slot is written. -/
theorem Inv.update (hI : m.Inv) (th' : Thread) (hth : m.threads[t]? = some th)
    (ht : ∀ u, m'.threads[u]? = if u = t then some th' else m.threads[u]?)
    (hk : Kept m m' th.phase.held?) (hkeys : (m'.names.map Prod.fst).Nodup)
    (hslots : ∀ n ∈ m'.names, (m'.slotAt? n.2).isSome) (hok : m'.ThreadOk th')
    (hl : LocksMoved m m' t th'.phase) : m.Advances m' := by
  refine ⟨⟨hkeys, hslots, ?_, ?_, ?_⟩, hk.holds⟩
  · intro u thu hu
    rw [ht] at hu
    split at hu
    · cases hu; exact hok
    · rename_i hne
      refine (hI.threads u thu hu).kept hk ?_
      intro s hs hs'
      -- two threads that hold one slot are one
      have hm := (hI.slotLock s t).2 (by rw [held?_of_threads hth, hs])
      rw [(hI.slotLock s u).2 (by rw [held?_of_threads hu, hs'])] at hm
      exact hne (Option.some.inj hm)
  · intro u
    simp only [hl.map, holdsMap, ht]
    split <;> rfl
  · intro s u
    simp only [hl.slot, held?, ht]
    split <;> rfl

/-- A step within a call: some change of the shared state, then the next phase. -/
theorem Inv.setPhase {X : Machine σ} (hI : m.Inv) (hth : m.threads[t]? = some th) {call : Call}
    {rest : List Call} (hc : th.calls = call :: rest) (hX : X.threads = m.threads)
    (hk : Kept m X th.phase.held?) (hkeys : (X.names.map Prod.fst).Nodup)
    (hslots : ∀ n ∈ X.names, (X.slotAt? n.2).isSome) (hp : X.PhaseOk call.name p)
    (hl : LocksMoved m X t p) : m.Advances (X.setPhase t p) := by
  have hsame : Kept X (X.setPhase t p) none :=
    ⟨fun _ _ h => h, fun _ _ _ h => h, fun _ h => h, fun _ _ h => h⟩
  refine hI.update { th with phase := p } hth ?_
    ⟨hk.refers, hk.vacant, hk.discarded, hk.holds⟩ hkeys hslots ?_ ⟨hl.map, hl.slot⟩
  · intro u
    simp only [Machine.setPhase, hX, List.getElem?_modify]
    by_cases hu : u = t
    · subst hu; simp [hth]
    · simp [hu, Ne.symm hu]
  · refine ⟨?_, ?_, ?_⟩
    · intro call' rest' hc'
      have hcc : call = call' := (List.cons.inj (hc.symm.trans hc')).1
      subst hcc
      exact hp.kept hsame fun s hs => by cases hs
    · intro h
      rw [hc] at h; cases h
    · intro call' i hi
      exact hk.holds _ _ ((hI.threads t th hth).answers call' i hi)

end Locks

end Machine

end TypedTables.Registry
