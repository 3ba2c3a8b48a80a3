/-
Every step of a thread keeps the invariant and takes no instance from its name, one theorem for each
phase. Main statements: `step_advances`, and `step_loads`, by which a step asks the store only for
the name of a slot that its thread may write.
-/
import TypedTables.Proofs.Entries
import TypedTables.Proofs.Registry.Invariant

namespace TypedTables.Registry.Machine

variable [TableTypes] {σ : Type} {loadAll : σ → Loader} {m m' : Machine σ} {t : Nat} {th : Thread}
  {call : Call} {rest : List Call}

/-- A thread that steps has a call, and the step is one of that call. -/
theorem step?_cases (h : step? loadAll m t = some m') :
    ∃ th call rest, m.threads[t]? = some th ∧ th.calls = call :: rest ∧
      stepCall loadAll m t call th.phase = some m' := by
  unfold step? at h
  split at h
  · rename_i call rest phase answers hth
    exact ⟨_, call, rest, hth, rfl, h⟩
  · cases h

theorem mapFree_iff : m.mapFree = true ↔ m.mapHolder = none := by
  simp [mapFree]

/-! ## Finding the slot of a name -/

theorem mem_of_slotOf? {name : String} {s : Nat} (h : m.slotOf? name = some s) :
    (name, s) ∈ m.names :=
  mem_of_find? h

theorem not_mem_of_slotOf? {name : String} (h : m.slotOf? name = none) :
    name ∉ m.names.map Prod.fst :=
  find?_eq_none_iff.1 h

/-- The machine with a new slot for a name. -/
def withSlot (m : Machine σ) (name : String) : Machine σ :=
  { m with
    names := (name, m.cells.length) :: m.names
    cells := m.cells ++ [⟨.unloaded, none⟩] }

theorem findOrMake_of_some {name : String} {s : Nat} (h : m.slotOf? name = some s) :
    m.findOrMake name = (s, m) := by
  unfold findOrMake; rw [h]

theorem findOrMake_of_none {name : String} (h : m.slotOf? name = none) :
    m.findOrMake name = (m.cells.length, m.withSlot name) := by
  unfold findOrMake; rw [h]; rfl

theorem slotAt?_withSlot (m : Machine σ) (name : String) (s : Nat) :
    (m.withSlot name).slotAt? s =
      if s = m.cells.length then some .unloaded else m.slotAt? s := by
  simp only [slotAt?, withSlot]
  rcases Nat.lt_trichotomy s m.cells.length with h | h | h
  · rw [List.getElem?_append_left h, if_neg (by omega)]
  · subst h; simp
  · rw [if_neg (by omega), List.getElem?_eq_none (by simp; omega), List.getElem?_eq_none (by omega)]

theorem holderOf?_withSlot (m : Machine σ) (name : String) (s : Nat) :
    (m.withSlot name).holderOf? s = m.holderOf? s := by
  simp only [holderOf?, withSlot]
  rcases Nat.lt_trichotomy s m.cells.length with h | h | h
  · rw [List.getElem?_append_left h]
  · subst h; simp
  · rw [List.getElem?_eq_none (by simp; omega), List.getElem?_eq_none (by omega)]

theorem lt_of_slotAt? {s : Nat} {x : Slot} (h : m.slotAt? s = some x) : s < m.cells.length := by
  obtain ⟨c, hc, -⟩ := Option.map_eq_some_iff.1 h
  exact (List.getElem?_eq_some_iff.1 hc).1

/-! ## Looking up a name -/

theorem start_advances (hI : m.Inv) (hth : m.threads[t]? = some th) (hc : th.calls = call :: rest)
    (hp : th.phase = .start) (h : stepCall loadAll m t call .start = some m') : m.Advances m' := by
  simp only [stepCall] at h
  split at h
  · rename_i hf
    cases h
    refine hI.setPhase hth hc rfl (.of_eq _ (fun _ => rfl) rfl) hI.keys hI.slots
      trivial ⟨?_, ?_⟩
    · exact map_taken hI (mapFree_iff.1 hf) rfl rfl
    · exact slot_left hI hth (fun _ => rfl) (by rw [hp]; rfl)
  · cases h

theorem inMap_advances (hI : m.Inv) (hth : m.threads[t]? = some th) (hc : th.calls = call :: rest)
    (hp : th.phase = .inMap) (h : stepCall loadAll m t call .inMap = some m') : m.Advances m' := by
  have hmap {X : Machine σ} {s : Nat} (hX : X.mapHolder = none) (u : Nat) :
      X.mapHolder = some u ↔ if u = t then (Phase.waiting s).holdsMap = true else m.holdsMap u = true :=
    map_given hI hth (by rw [hp]; rfl) hX rfl u
  simp only [stepCall] at h
  cases hs : m.slotOf? call.name with
  | some s =>
    rw [findOrMake_of_some hs] at h
    cases h
    refine hI.setPhase hth hc rfl (.of_eq _ (fun _ => rfl) rfl) hI.keys hI.slots
      (.inl (mem_of_slotOf? hs)) ⟨hmap rfl, ?_⟩
    exact slot_left hI hth (fun _ => rfl) (by rw [hp]; rfl)
  | none =>
    rw [findOrMake_of_none hs] at h
    cases h
    refine hI.setPhase (X := { m.withSlot call.name with mapHolder := none }) hth hc rfl
      (.of_slots _ (fun s x hx => ?_) fun _ h => .inl (List.mem_cons_of_mem _ h)) ?_ ?_
      (.inl (List.mem_cons_self ..)) ⟨hmap rfl, ?_⟩
    · show (m.withSlot call.name).slotAt? s = some x
      rw [slotAt?_withSlot, if_neg (lt_of_slotAt? hx).ne]; exact hx
    · exact List.nodup_cons.2 ⟨not_mem_of_slotOf? hs, hI.keys⟩
    · intro n hn
      show ((m.withSlot call.name).slotAt? n.2).isSome
      rw [slotAt?_withSlot]
      split
      · rfl
      · rename_i hne
        rcases List.mem_cons.1 hn with rfl | hn
        · exact absurd rfl hne
        · exact hI.slots n hn
    · exact slot_left hI hth (holderOf?_withSlot m call.name) (by rw [hp]; rfl)

theorem waiting_advances {s : Nat} (hI : m.Inv) (hth : m.threads[t]? = some th)
    (hc : th.calls = call :: rest) (hp : th.phase = .waiting s)
    (h : stepCall loadAll m t call (.waiting s) = some m') : m.Advances m' := by
  simp only [stepCall] at h
  split at h
  · rename_i x hs
    cases h
    have hrefers : m.Refers call.name s := hI.phaseOk hth hc hp
    have hslot (r : Nat) : (m.setHolder s (some t)).slotAt? r = m.slotAt? r := slotAt?_setHolder m s r _
    refine hI.setPhase hth hc rfl (.of_eq _ hslot rfl) hI.keys ?_ ?_ ⟨?_, ?_⟩
    · intro n hn
      rw [hslot]; exact hI.slots n hn
    · show Refers _ _ _
      unfold Refers
      rw [hslot]; exact hrefers
    · exact map_left hI hth rfl (by rw [hp]; rfl)
    · refine slot_taken (r := s) hI hth ?_ (by rw [hp]; rfl) (fun r => ?_) rfl
      · simp [holderOf?, hs]
      · rw [holderOf?_setHolder]
        split
        · rename_i hr; subst hr; simp [slotAt?, hs]
        · rfl
  · cases h

/-! ## Inside a slot -/

/-- A step that changes nothing but the phase. -/
theorem Inv.setPhase_only (hI : m.Inv) (hth : m.threads[t]? = some th)
    (hc : th.calls = call :: rest) {p q : Phase} (hp : th.phase = p) (hq : m.PhaseOk call.name q)
    (hmap : q.holdsMap = p.holdsMap) (hheld : q.held? = p.held?) : m.Advances (m.setPhase t q) := by
  subst hp
  exact hI.setPhase hth hc rfl (.of_eq _ (fun _ => rfl) rfl) hI.keys hI.slots hq
    ⟨map_left hI hth rfl hmap, slot_left hI hth (fun _ => rfl) hheld⟩

theorem inSlot_advances {s : Nat} (hI : m.Inv) (hth : m.threads[t]? = some th)
    (hc : th.calls = call :: rest) (hp : th.phase = .inSlot s)
    (h : stepCall loadAll m t call (.inSlot s) = some m') : m.Advances m' := by
  have hrefers : m.Refers call.name s := hI.phaseOk hth hc hp
  simp only [stepCall] at h
  split at h
  · rename_i i _ hs
    cases h
    refine hI.setPhase_only hth hc hp ?_ rfl rfl
    have hl : m.slotAt? s = some (.loaded i) := by simp [slotAt?, hs]
    have hn : (call.name, s) ∈ m.names := hrefers.mem (by rw [hl]; simp)
    simp only [Slot.answer?]
    by_cases htype : i.table.type = call.type
    · rw [if_pos htype]; exact ⟨s, hn, hl⟩
    · rw [if_neg htype]; trivial
  · cases h
    exact hI.setPhase_only hth hc hp trivial rfl rfl
  · -- the slot is neither filled nor discarded, so it may be written
    rename_i hnl hnd
    cases h
    refine hI.setPhase_only hth hc hp ?_ rfl rfl
    have hn : (call.name, s) ∈ m.names := by
      refine hrefers.mem ?_
      intro h
      obtain ⟨c, hc', hd⟩ := Option.map_eq_some_iff.1 h
      exact hnd c.holder (by rw [hc', ← hd])
    obtain ⟨x, hx⟩ := Option.isSome_iff_exists.1 (hI.slots _ hn)
    refine ⟨hn, x, hx, ?_⟩
    obtain ⟨c, hc', hd⟩ := Option.map_eq_some_iff.1 hx
    subst hd
    cases hslot : c.slot with
    | unloaded => rfl
    | failed e => rfl
    | loaded i => exact absurd (by rw [hc', ← hslot]) (hnl i c.holder)
    | discarded => exact absurd (by rw [hc', ← hslot]) (hnd c.holder)

/-- Writing the slot that the thread loads. -/
theorem Inv.setSlot_setPhase {s : Nat} (hI : m.Inv) (hth : m.threads[t]? = some th)
    (hc : th.calls = call :: rest) (hp : th.phase = .loading s) {X : Machine σ} {y : Slot}
    (hX : X.threads = m.threads) (hn : X.names = m.names) (hm : X.mapHolder = m.mapHolder)
    (hcells : X.cells = m.cells) {q : Phase} (hq : (X.setSlot s y).PhaseOk call.name q)
    (hmap : q.holdsMap = false) (hheld : q.held? = some s) :
    m.Advances ((X.setSlot s y).setPhase t q) := by
  obtain ⟨-, x, hx, ho⟩ : m.Vacant call.name s := hI.phaseOk hth hc hp
  have hsame (r : Nat) : X.slotAt? r = m.slotAt? r := by simp only [slotAt?, hcells]
  have hslot (r : Nat) : (X.setSlot s y).slotAt? r = if s = r then some y else m.slotAt? r := by
    rw [slotAt?_setSlot, hsame]
    split
    · rename_i hr; subst hr; rw [hx]; rfl
    · rfl
  have hk : Kept m (X.setSlot s y) th.phase.held? := by
    rw [hp]; exact .of_write hx ho hn hslot
  have hnames : (X.setSlot s y).names = m.names := hn
  refine hI.setPhase hth hc hX hk (by rw [hnames]; exact hI.keys) ?_ hq ⟨?_, ?_⟩
  · intro n hn'
    rw [hslot]
    split
    · rfl
    · exact hI.slots n (hnames ▸ hn')
  · exact map_left hI hth hm (by rw [hp, hmap]; rfl)
  · refine slot_left hI hth ?_ (by rw [hp, hheld]; rfl)
    intro r
    rw [holderOf?_setSlot]; simp only [holderOf?, hcells]

theorem loading_advances {s : Nat} (hI : m.Inv) (hth : m.threads[t]? = some th)
    (hc : th.calls = call :: rest) (hp : th.phase = .loading s)
    (h : stepCall loadAll m t call (.loading s) = some m') : m.Advances m' := by
  obtain ⟨hn, x, hx, -⟩ : m.Vacant call.name s := hI.phaseOk hth hc hp
  -- what is written is read back, as the slot exists
  have hread {X : Machine σ} (hX : X.cells = m.cells) (y : Slot) :
      (X.setSlot s y).slotAt? s = some y := by
    rw [slotAt?_setSlot, if_pos rfl, slotAt?, hX, ← slotAt?, hx]; rfl
  simp only [stepCall, afterLoad] at h
  split at h
  · cases h
    refine hI.setSlot_setPhase (X := { m with nextId := m.nextId + 1, loads := call.name :: m.loads })
      hth hc hp rfl rfl rfl rfl ?_ rfl rfl
    exact ⟨s, hn, hread rfl _⟩
  · cases h
    refine hI.setSlot_setPhase (X := { m with loads := call.name :: m.loads })
      hth hc hp rfl rfl rfl rfl ?_ rfl rfl
    exact hread rfl _
  · cases h
    refine hI.setSlot_setPhase (X := { m with loads := call.name :: m.loads })
      hth hc hp rfl rfl rfl rfl ?_ rfl rfl
    trivial

/-! ## Discarding and leaving a slot -/

theorem discarding_advances {s : Nat} (hI : m.Inv) (hth : m.threads[t]? = some th)
    (hc : th.calls = call :: rest) (hp : th.phase = .discarding s)
    (h : stepCall loadAll m t call (.discarding s) = some m') : m.Advances m' := by
  have hd : m.slotAt? s = some .discarded := hI.phaseOk hth hc hp
  simp only [stepCall] at h
  split at h
  · rename_i hf
    cases h
    refine hI.setPhase hth hc rfl (.of_eq _ (fun _ => rfl) rfl) hI.keys hI.slots
      hd ⟨?_, ?_⟩
    · exact map_taken hI (mapFree_iff.1 hf) rfl rfl
    · exact slot_left hI hth (fun _ => rfl) (by rw [hp]; rfl)
  · cases h

theorem discardingInMap_advances {s : Nat} (hI : m.Inv) (hth : m.threads[t]? = some th)
    (hc : th.calls = call :: rest) (hp : th.phase = .discardingInMap s)
    (h : stepCall loadAll m t call (.discardingInMap s) = some m') : m.Advances m' := by
  have hd : m.slotAt? s = some .discarded := hI.phaseOk hth hc hp
  simp only [stepCall] at h
  cases h
  refine hI.setPhase hth hc rfl (.of_slots _ (fun _ _ h => h) ?_) ?_ ?_ trivial ⟨?_, ?_⟩
  · -- only the discarded slot leaves the map
    intro n hn
    by_cases hne : n = (call.name, s)
    · subst hne; exact .inr hd
    · exact .inl (List.mem_filter.2 ⟨hn, by simpa using hne⟩)
  · exact hI.keys.sublist (List.filter_sublist.map _)
  · intro n hn
    exact hI.slots n (List.mem_of_mem_filter hn)
  · exact map_given hI hth (by rw [hp]; rfl) rfl rfl
  · exact slot_left hI hth (fun _ => rfl) (by rw [hp]; rfl)

theorem leaving_advances {s : Nat} {answer : Option Answer} (hI : m.Inv) (hth : m.threads[t]? = some th)
    (hc : th.calls = call :: rest) (hp : th.phase = .leaving s answer)
    (h : stepCall loadAll m t call (.leaving s answer) = some m') : m.Advances m' := by
  have hok := hI.phaseOk hth hc hp
  have hslot (r : Nat) : (m.setHolder s none).slotAt? r = m.slotAt? r := slotAt?_setHolder m s r _
  have hk : Kept m (m.setHolder s none) th.phase.held? := .of_eq _ hslot rfl
  have hslots : ∀ n ∈ (m.setHolder s none).names, ((m.setHolder s none).slotAt? n.2).isSome := by
    intro n hn
    rw [hslot]; exact hI.slots n hn
  have hlocks : LocksMoved m (m.setHolder s none) t .start := by
    refine ⟨map_left hI hth rfl (by rw [hp]; rfl), slot_given hI hth (by rw [hp]; rfl) (fun r => ?_) rfl⟩
    rw [holderOf?_setHolder]
    split
    · cases m.slotAt? r <;> rfl
    · rfl
  cases answer with
  | none =>
    simp only [stepCall] at h
    cases h
    exact hI.setPhase hth hc rfl hk hI.keys hslots trivial hlocks
  | some answer =>
    simp only [stepCall] at h
    cases h
    refine hI.update ⟨th.calls.drop 1, .start, (call, answer) :: th.answers⟩ hth ?_
      ⟨hk.refers, hk.vacant, hk.discarded, hk.holds⟩ hI.keys hslots ?_
      ⟨hlocks.map, hlocks.slot⟩
    · intro u
      simp only [finish, setHolder, List.getElem?_modify]
      by_cases hu : u = t
      · subst hu; simp [hth]
      · simp [hu, Ne.symm hu]
    · refine ⟨fun _ _ _ => trivial, fun _ => rfl, ?_⟩
      intro call' i hi
      rcases List.mem_cons.1 hi with hi | hi
      · -- the instance just answered still stands in the slot left
        cases hi
        exact hk.holds call.name i hok
      · exact hk.holds _ _ ((hI.threads t th hth).answers call' i hi)

/-! ## Every step -/

/-- A step of a thread keeps the invariant and takes no instance from its name. -/
theorem step_advances (hI : m.Inv) (h : step? loadAll m t = some m') : m.Advances m' := by
  obtain ⟨th, call, rest, hth, hc, h⟩ := step?_cases h
  cases hp : th.phase <;> rw [hp] at h
  case start => exact start_advances hI hth hc hp h
  case inMap => exact inMap_advances hI hth hc hp h
  case waiting s => exact waiting_advances hI hth hc hp h
  case inSlot s => exact inSlot_advances hI hth hc hp h
  case loading s => exact loading_advances hI hth hc hp h
  case discarding s => exact discarding_advances hI hth hc hp h
  case discardingInMap s => exact discardingInMap_advances hI hth hc hp h
  case leaving s answer => exact leaving_advances hI hth hc hp h

/-- A step leaves the loads as they are, or adds the name of a slot that it may write. -/
theorem step_loads (hI : m.Inv) (h : step? loadAll m t = some m') :
    m'.loads = m.loads ∨ ∃ name s, m.Vacant name s ∧ m'.loads = name :: m.loads := by
  obtain ⟨th, call, rest, hth, hc, h⟩ := step?_cases h
  cases hp : th.phase <;> rw [hp] at h <;> simp only [stepCall] at h
  case loading s =>
    refine .inr ⟨call.name, s, hI.phaseOk hth hc hp, ?_⟩
    unfold afterLoad at h
    split at h <;> cases h <;> rfl
  case start => split at h <;> cases h; exact .inl rfl
  case inMap =>
    cases h
    unfold findOrMake
    split <;> exact .inl rfl
  case waiting s => split at h <;> cases h; exact .inl rfl
  case inSlot s => split at h <;> cases h <;> exact .inl rfl
  case discarding s => split at h <;> cases h; exact .inl rfl
  case discardingInMap s => cases h; exact .inl rfl
  case leaving s answer => cases answer <;> cases h <;> exact .inl rfl

end TypedTables.Registry.Machine
