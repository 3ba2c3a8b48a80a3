/-
One call at a time. A thread that is alone waits for no lock: it finds or makes the slot of its name,
looks at it and loads the table if it has to, and a slot for which nothing is stored it discards and
takes out of the map. When it has its answer, the answer, the slots and the number of loads are those
of `Registry.get`. Main statement: `Rests.callAll_singleton`.
-/
import TypedTables.Proofs.Registry.Get
import TypedTables.Proofs.Registry.Steps

namespace TypedTables.Registry.Machine

variable [TableTypes] {σ : Type} {loadAll : σ → Loader} {m : Machine σ} {c : Call} {name : String}
  {s : Nat} {x y : Slot}

/-! ## Machines at rest -/

/-- No thread is in a call: all locks are free, and every slot in the map is that of one name and not
discarded. -/
structure Rests (m : Machine σ) : Prop where
  keys : (m.names.map Prod.fst).Nodup
  places : (m.names.map Prod.snd).Nodup
  cells : ∀ n ∈ m.names, ∃ x, m.cells[n.2]? = some ⟨x, none⟩ ∧ x ≠ .discarded
  mapFree : m.mapHolder = none

theorem Rests.map_fst_slots (h : m.Rests) : m.registry.slots.map Prod.fst = m.names.map Prod.fst := by
  rw [registry, List.map_filterMap, ← List.filterMap_eq_map]
  refine List.filterMap_congr fun n hn => ?_
  obtain ⟨x, hx, -⟩ := h.cells n hn
  rw [hx]; rfl

theorem Rests.onePerName (h : m.Rests) : m.registry.OnePerName := by
  rw [OnePerName, h.map_fst_slots]
  exact h.keys

/-- The slot of a name is the one in its place. -/
theorem Rests.slot?_eq_some (h : m.Rests) :
    m.registry.slot? name = some x ↔ ∃ s, (name, s) ∈ m.names ∧ m.cells[s]? = some ⟨x, none⟩ := by
  rw [h.onePerName.slot?_eq_some, registry, List.mem_filterMap]
  constructor
  · rintro ⟨⟨n, s⟩, hn, hx⟩
    obtain ⟨cell, hcell, heq⟩ := Option.map_eq_some_iff.1 hx
    obtain ⟨y, hy, -⟩ := h.cells _ hn
    cases hcell.symm.trans hy
    cases heq
    exact ⟨s, hn, hy⟩
  · rintro ⟨s, hn, hx⟩
    exact ⟨(name, s), hn, by rw [hx]; rfl⟩

theorem Rests.slot?_eq_none (h : m.Rests) : m.registry.slot? name = none ↔ m.slotOf? name = none := by
  rw [slot?, slotOf?, find?_eq_none_iff, find?_eq_none_iff, h.map_fst_slots]

/-- Another cell in the place of a slot. -/
def withCell (m : Machine σ) (s : Nat) (cell : Cell) : Machine σ := { m with cells := m.cells.set s cell }

theorem cells_withCell {old : Cell} (h : m.cells[s]? = some old) (cell : Cell) (r : Nat) :
    (m.withCell s cell).cells[r]? = if s = r then some cell else m.cells[r]? := by
  have hlt : s < m.cells.length := (List.getElem?_eq_some_iff.1 h).1
  simp only [withCell, List.getElem?_set, hlt, if_true]

theorem cell_withCell {old : Cell} (h : m.cells[s]? = some old) (cell : Cell) :
    (m.withCell s cell).cells[s]? = some cell := by
  rw [cells_withCell h, if_pos rfl]

theorem withCell_self {cell : Cell} (h : m.cells[s]? = some cell) : m.withCell s cell = m := by
  have hcells : m.cells.set s cell = m.cells := by
    obtain ⟨hlt, rfl⟩ := List.getElem?_eq_some_iff.1 h
    exact List.set_getElem_self hlt
  rw [withCell, hcells]

theorem withCell_withCell (m : Machine σ) (s : Nat) (a b : Cell) :
    (m.withCell s a).withCell s b = m.withCell s b := by
  simp only [withCell, List.set_set]

theorem setHolder_eq {holder : Option Nat} (h : m.cells[s]? = some ⟨x, holder⟩) (t : Option Nat) :
    m.setHolder s t = m.withCell s ⟨x, t⟩ := by
  rw [setHolder, withCell, List.modify_eq_set_getElem?, h]; rfl

theorem setSlot_eq {holder : Option Nat} (h : m.cells[s]? = some ⟨x, holder⟩) (y : Slot) :
    m.setSlot s y = m.withCell s ⟨y, holder⟩ := by
  rw [setSlot, withCell, List.modify_eq_set_getElem?, h]; rfl

/-- A slot of a name that is written. -/
theorem Rests.withCell (h : m.Rests) (hn : (name, s) ∈ m.names) (hy : y ≠ .discarded) :
    (m.withCell s ⟨y, none⟩).Rests where
  keys := h.keys
  places := h.places
  mapFree := h.mapFree
  cells n hmem := by
    obtain ⟨x, hx, -⟩ := h.cells _ hn
    rw [cells_withCell hx]
    split
    · exact ⟨y, rfl, hy⟩
    · exact h.cells n hmem

theorem Rests.slots_withCell (h : m.Rests) (hn : (name, s) ∈ m.names) (y : Slot) :
    (m.withCell s ⟨y, none⟩).registry.slots = (m.registry.setSlot name (some y)).slots := by
  obtain ⟨x, hx, -⟩ := h.cells _ hn
  have hsome : (m.registry.slot? name).isSome = true := by
    rw [h.slot?_eq_some.2 ⟨s, hn, hx⟩]; rfl
  rw [Registry.setSlot, if_pos hsome, registry, registry, List.map_filterMap]
  refine List.filterMap_congr fun n hmem => ?_
  obtain ⟨z, hz, -⟩ := h.cells n hmem
  rw [cells_withCell hx, hz]
  by_cases hs : s = n.2
  · obtain rfl : (name, s) = n := List.inj_on_of_nodup_map h.places hn hmem hs
    simp
  · have hname : n.1 ≠ name := by
      intro he
      exact hs (Prod.mk.inj (List.inj_on_of_nodup_map h.keys hn hmem he.symm)).2
    simp [hs, hname]

/-- The map without the slot of a name, which is left discarded. -/
def withoutSlot (m : Machine σ) (name : String) (s : Nat) : Machine σ :=
  { m.withCell s ⟨.discarded, none⟩ with names := m.names.filter fun n => n != (name, s) }

theorem Rests.filter_names (h : m.Rests) (hn : (name, s) ∈ m.names) :
    (m.names.filter fun n => n != (name, s)) = m.names.filter fun n => n.1 != name := by
  refine List.filter_congr fun n hmem => ?_
  rw [Bool.eq_iff_iff, bne_iff_ne, bne_iff_ne, not_iff_not]
  constructor
  · rintro rfl; rfl
  · intro he
    exact List.inj_on_of_nodup_map h.keys hmem hn he

theorem Rests.withoutSlot (h : m.Rests) (hn : (name, s) ∈ m.names) : (m.withoutSlot name s).Rests where
  keys := h.keys.sublist (List.filter_sublist.map _)
  places := h.places.sublist (List.filter_sublist.map _)
  mapFree := h.mapFree
  cells n hmem := by
    obtain ⟨hmem, hne⟩ := List.mem_filter.1 hmem
    obtain ⟨x, hx, -⟩ := h.cells _ hn
    show ∃ y, (m.withCell s ⟨.discarded, none⟩).cells[n.2]? = _ ∧ _
    rw [cells_withCell hx, if_neg]
    · exact h.cells n hmem
    · intro hs
      exact bne_iff_ne.1 hne (List.inj_on_of_nodup_map h.places hmem hn hs.symm)

theorem Rests.slots_withoutSlot (h : m.Rests) (hn : (name, s) ∈ m.names) :
    (m.withoutSlot name s).registry.slots = (m.registry.setSlot name none).slots := by
  obtain ⟨x, hx, -⟩ := h.cells _ hn
  rw [Registry.setSlot, registry, registry, List.filter_filterMap]
  show List.filterMap _ (m.names.filter fun n => n != (name, s)) = _
  rw [h.filter_names hn, List.filterMap_filter]
  refine List.filterMap_congr fun n hmem => ?_
  obtain ⟨z, hz, -⟩ := h.cells n hmem
  show (if _ then ((m.withCell s ⟨.discarded, none⟩).cells[n.2]?).map _ else none) = _
  rw [cells_withCell hx, hz]
  by_cases hname : n.1 = name
  · simp [hname, Option.filter]
  · have hs : s ≠ n.2 := by
      rintro rfl
      exact hname (Prod.mk.inj (List.inj_on_of_nodup_map h.places hmem hn rfl)).1
    simp [hname, hs, Option.filter]

/-! ## Looking a name up -/

theorem Rests.withSlot (h : m.Rests) (hfree : m.slotOf? name = none) : (m.withSlot name).Rests where
  keys := List.nodup_cons.2 ⟨not_mem_of_slotOf? hfree, h.keys⟩
  places := by
    refine List.nodup_cons.2 ⟨?_, h.places⟩
    intro hmem
    obtain ⟨n, hn, hlength⟩ := List.mem_map.1 hmem
    obtain ⟨x, hx, -⟩ := h.cells n hn
    exact absurd (List.getElem?_eq_some_iff.1 hx).1 (by omega)
  mapFree := h.mapFree
  cells n hmem := by
    rcases List.mem_cons.1 hmem with rfl | hmem
    · exact ⟨.unloaded, by simp [Machine.withSlot], by simp⟩
    · obtain ⟨x, hx, hkept⟩ := h.cells n hmem
      refine ⟨x, ?_, hkept⟩
      rw [Machine.withSlot, List.getElem?_append_left (List.getElem?_eq_some_iff.1 hx).1, hx]

theorem Rests.slots_withSlot (h : m.Rests) (name : String) :
    (m.withSlot name).registry.slots = (name, .unloaded) :: m.registry.slots := by
  simp only [registry, Machine.withSlot]
  rw [List.filterMap_cons_some (b := (name, .unloaded)) (by simp)]
  refine congrArg _ (List.filterMap_congr fun n hn => ?_)
  obtain ⟨x, hx, -⟩ := h.cells n hn
  rw [List.getElem?_append_left (List.getElem?_eq_some_iff.1 hx).1]

/-- A new slot makes no difference for what is written into the slot of its name. -/
theorem setSlot_unloaded {r r' : Registry} (hslots : r'.slots = (name, .unloaded) :: r.slots)
    (hfree : r.slot? name = none) (slot : Option Slot) :
    (r'.setSlot name slot).slots = (r.setSlot name slot).slots := by
  have hothers : ∀ e ∈ r.slots, e.1 ≠ name := by
    intro e he hname
    exact find?_eq_none_iff.1 hfree (List.mem_map.2 ⟨e, he, hname⟩)
  cases slot with
  | none =>
    rw [Registry.setSlot, Registry.setSlot, hslots, List.filter_cons_of_neg (by simp)]
  | some y =>
    have hsome : (r'.slot? name).isSome = true := by rw [Registry.slot?, hslots]; simp
    rw [Registry.setSlot, Registry.setSlot, if_pos hsome, hfree, if_neg (by simp), hslots, List.map_cons,
      if_pos rfl]
    refine congrArg (List.cons _) ?_
    rw [List.map_congr_left fun e he => if_neg (hothers e he), List.map_id']

/-! ## Steps of a thread that is alone -/

/-- The machine with one thread, which is in a call. -/
def alone (m : Machine σ) (c : Call) (p : Phase) : Machine σ := { m with threads := [⟨[c], p, []⟩] }

/-- The machine with one thread, whose call is answered. -/
def ended (m : Machine σ) (c : Call) (answer : Answer) : Machine σ :=
  { m with threads := [⟨[], .start, [(c, answer)]⟩] }

theorem run_ended (n : Nat) (answer : Answer) :
    run loadAll n (m.ended c answer) = m.ended c answer := by
  cases n <;> rfl

theorem run_alone {k : Machine σ} {p q : Phase}
    (h : stepCall loadAll (m.alone c p) 0 c p = some (k.alone c q)) (n : Nat) :
    run loadAll (n + 1) (m.alone c p) = run loadAll n (k.alone c q) := by
  have hstep : step? loadAll (m.alone c p) 0 = some (k.alone c q) := h
  show run loadAll n ((step? loadAll (m.alone c p) 0).getD (m.alone c p)) = _
  rw [hstep]; rfl

/-- The first two steps take the lock of the map, find or make the slot and give the lock back. -/
theorem run_start (h : m.mapHolder = none) (n : Nat) :
    run loadAll (n + 2) (m.alone c .start) =
      run loadAll n ((m.findOrMake c.name).2.alone c (.waiting (m.findOrMake c.name).1)) := by
  obtain ⟨store, names, cells, holder, threads, nextId, loads⟩ := m
  obtain rfl : holder = none := h
  have hmap : stepCall loadAll (alone ⟨store, names, cells, some 0, threads, nextId, loads⟩ c .inMap) 0 c
      .inMap = some (((Machine.mk store names cells none threads nextId loads).findOrMake c.name).2.alone c
        (.waiting ((Machine.mk store names cells none threads nextId loads).findOrMake c.name).1)) := by
    cases hslot : (Machine.mk store names cells none threads nextId loads).slotOf? c.name with
    | some s =>
      have hslot' : (alone ⟨store, names, cells, some 0, threads, nextId, loads⟩ c .inMap).slotOf? c.name =
          some s := hslot
      rw [stepCall, findOrMake_of_some hslot', findOrMake_of_some hslot]
      rfl
    | none =>
      have hslot' : (alone ⟨store, names, cells, some 0, threads, nextId, loads⟩ c .inMap).slotOf? c.name =
          none := hslot
      rw [stepCall, findOrMake_of_none hslot', findOrMake_of_none hslot]
      rfl
  exact (run_alone (k := ⟨store, names, cells, some 0, threads, nextId, loads⟩) rfl (n + 1)).trans
    (run_alone hmap n)

/-- The lock of the slot is free, so the next step takes it. -/
theorem run_waiting (hx : m.cells[s]? = some ⟨x, none⟩) (n : Nat) :
    run loadAll (n + 1) (m.alone c (.waiting s)) =
      run loadAll n ((m.withCell s ⟨x, some 0⟩).alone c (.inSlot s)) := by
  refine run_alone ?_ n
  rw [← setHolder_eq hx, stepCall, show (m.alone c (.waiting s)).cells[s]? = some ⟨x, none⟩ from hx]
  rfl

/-- The last step gives the lock of the slot back. -/
theorem run_leaving (hx : m.cells[s]? = some ⟨x, some 0⟩) (answer : Answer) (n : Nat) :
    run loadAll (n + 1) (m.alone c (.leaving s (some answer))) =
      (m.withCell s ⟨x, none⟩).ended c answer := by
  rw [← setHolder_eq hx, ← run_ended n]
  rfl

/-- A slot with an instance is left as it was. -/
theorem run_held {i : Instance} (hx : m.cells[s]? = some ⟨.loaded i, none⟩) (n : Nat) :
    run loadAll (n + 3) (m.alone c (.waiting s)) = m.ended c (heldAnswer c.name c.type i) := by
  have hlocked := cell_withCell hx ⟨.loaded i, some 0⟩
  have hlook : stepCall loadAll ((m.withCell s ⟨.loaded i, some 0⟩).alone c (.inSlot s)) 0 c (.inSlot s) =
      some ((m.withCell s ⟨.loaded i, some 0⟩).alone c
        (.leaving s (some (heldAnswer c.name c.type i)))) := by
    simp only [stepCall, alone, hlocked]
    rfl
  rw [run_waiting hx, run_alone hlook, run_leaving hlocked, withCell_withCell, withCell_self hx]

/-- The machine after the store was asked for a name. -/
def asked (m : Machine σ) (name : String) (nextId : Nat) : Machine σ :=
  { m with nextId := nextId, loads := name :: m.loads }

/-- The table of an open slot is loaded. -/
theorem run_open (hx : m.cells[s]? = some ⟨x, none⟩) (hopen : x.isOpen = true) (n : Nat) :
    run loadAll (n + 2) (m.alone c (.waiting s)) =
      run loadAll n ((m.withCell s ⟨x, some 0⟩).alone c (.loading s)) := by
  have hlocked := cell_withCell hx ⟨x, some 0⟩
  rw [run_waiting hx]
  refine run_alone ?_ n
  simp only [stepCall, alone, hlocked]
  cases x with
  | unloaded | failed => rfl
  | loaded | discarded => cases hopen

/-- A step that writes the slot after a load, and the last step. -/
theorem run_written {nextId : Nat} {answer : Answer} (hx : m.cells[s]? = some ⟨x, some 0⟩)
    (hstep : stepCall loadAll (m.alone c (.loading s)) 0 c (.loading s) =
      some (((m.asked c.name nextId).setSlot s y).alone c (.leaving s (some answer)))) (n : Nat) :
    run loadAll (n + 2) (m.alone c (.loading s)) =
      ((m.asked c.name nextId).withCell s ⟨y, none⟩).ended c answer := by
  have hcell : (m.asked c.name nextId).cells[s]? = some ⟨x, some 0⟩ := hx
  rw [run_alone hstep, setSlot_eq hcell, run_leaving (cell_withCell hcell _), withCell_withCell]

theorem run_loaded {table : AnyTable} (hx : m.cells[s]? = some ⟨x, none⟩) (hopen : x.isOpen = true)
    (hload : load (loadAll m.store) c.name c.type = .ok table) (n : Nat) :
    run loadAll (n + 4) (m.alone c (.waiting s)) =
      ((m.asked c.name (m.nextId + 1)).withCell s ⟨.loaded ⟨m.nextId, table⟩, none⟩).ended c
        (.ok ⟨m.nextId, table⟩) := by
  have hlocked := cell_withCell hx ⟨x, some 0⟩
  have hload' : load (loadAll ((m.withCell s ⟨x, some 0⟩).alone c (.loading s)).store) c.name c.type =
      .ok table := hload
  rw [run_open hx hopen, run_written (y := .loaded ⟨m.nextId, table⟩) hlocked]
  · exact congrArg (fun m => ended m c _) (withCell_withCell (m.asked c.name (m.nextId + 1)) s _ _)
  · simp only [stepCall, hload']
    rfl

theorem run_failed {e : LoadError} (hx : m.cells[s]? = some ⟨x, none⟩) (hopen : x.isOpen = true)
    (hload : load (loadAll m.store) c.name c.type = .error e) (hfound : ∀ name, e ≠ .notFound name)
    (n : Nat) : run loadAll (n + 4) (m.alone c (.waiting s)) =
      ((m.asked c.name m.nextId).withCell s ⟨.failed e, none⟩).ended c (.error e) := by
  have hlocked := cell_withCell hx ⟨x, some 0⟩
  have hload' : load (loadAll ((m.withCell s ⟨x, some 0⟩).alone c (.loading s)).store) c.name c.type =
      .error e := hload
  rw [run_open hx hopen, run_written (y := .failed e) hlocked]
  · exact congrArg (fun m => ended m c _) (withCell_withCell (m.asked c.name m.nextId) s _ _)
  · simp only [stepCall, hload']
    cases e with
    | notFound name => exact absurd rfl (hfound name)
    | _ => rfl

/-- A discarded slot is taken out of the map before its lock is given back. -/
theorem run_discarding (hfree : m.mapHolder = none) (hx : m.cells[s]? = some ⟨.discarded, some 0⟩) (n : Nat) :
    run loadAll (n + 3) (m.alone c (.discarding s)) =
      (m.withoutSlot c.name s).ended c (.error (.notFound c.name)) := by
  obtain ⟨store, names, cells, holder, threads, nextId, loads⟩ := m
  obtain rfl : holder = none := hfree
  let others := names.filter fun n => n != (c.name, s)
  refine (run_alone (k := ⟨store, names, cells, some 0, threads, nextId, loads⟩) rfl (n + 2)).trans ?_
  refine (run_alone (k := ⟨store, others, cells, none, threads, nextId, loads⟩) rfl (n + 1)).trans ?_
  exact run_leaving (m := ⟨store, others, cells, none, threads, nextId, loads⟩) hx _ n

theorem run_missing (hx : m.cells[s]? = some ⟨x, none⟩) (hopen : x.isOpen = true)
    (hfree : m.mapHolder = none) (hload : load (loadAll m.store) c.name c.type = .error (.notFound c.name))
    (n : Nat) : run loadAll (n + 6) (m.alone c (.waiting s)) =
      ((m.asked c.name m.nextId).withoutSlot c.name s).ended c (.error (.notFound c.name)) := by
  have hlocked : ((m.withCell s ⟨x, some 0⟩).asked c.name m.nextId).cells[s]? = some ⟨x, some 0⟩ :=
    cell_withCell hx ⟨x, some 0⟩
  have hload' : load (loadAll ((m.withCell s ⟨x, some 0⟩).alone c (.loading s)).store) c.name c.type =
      .error (.notFound c.name) := hload
  have hdiscard : stepCall loadAll ((m.withCell s ⟨x, some 0⟩).alone c (.loading s)) 0 c (.loading s) =
      some ((((m.withCell s ⟨x, some 0⟩).asked c.name m.nextId).setSlot s .discarded).alone c
        (.discarding s)) := by
    simp only [stepCall, hload']
    rfl
  have hdiscarded := cell_withCell hlocked ⟨.discarded, some 0⟩
  have hfree' : (((m.withCell s ⟨x, some 0⟩).asked c.name m.nextId).withCell s
      ⟨.discarded, some 0⟩).mapHolder = none := hfree
  have hgone : (((m.withCell s ⟨x, some 0⟩).asked c.name m.nextId).withCell s
      ⟨.discarded, some 0⟩).withoutSlot c.name s = (m.asked c.name m.nextId).withoutSlot c.name s := by
    simp only [withoutSlot, withCell, asked, List.set_set]
  rw [run_open hx hopen, run_alone hdiscard, setSlot_eq hlocked, run_discarding hfree' hdiscarded, hgone]

/-! ## Whole calls -/

/-- The slot of a name as `findOrMake` gives it: one that was there, or a new one that makes no
difference for what is written into it. -/
structure Found (m : Machine σ) (name : String) (s : Nat) (x : Slot) (k : Machine σ) : Prop where
  rests : k.Rests
  mem : (name, s) ∈ k.names
  cell : k.cells[s]? = some ⟨x, none⟩
  loaded : ∀ i, m.registry.slot? name = some (.loaded i) ↔ x = .loaded i
  eq_of_loaded : ∀ i, x = .loaded i → k = m
  setSlot : ∀ slot, (k.registry.setSlot name slot).slots = (m.registry.setSlot name slot).slots
  shared : k.store = m.store ∧ k.nextId = m.nextId ∧ k.loads = m.loads
  others : ∀ n, n.1 ≠ name → (n ∈ k.names ↔ n ∈ m.names)
  cells : ∀ n ∈ m.names, k.cells[n.2]? = m.cells[n.2]?

theorem Rests.found (h : m.Rests) (name : String) :
    ∃ x, Found m name (m.findOrMake name).1 x (m.findOrMake name).2 := by
  cases hslot : m.slotOf? name with
  | some s =>
    have hmem := mem_of_slotOf? hslot
    obtain ⟨x, hx, -⟩ := h.cells _ hmem
    have hslot? : m.registry.slot? name = some x := h.slot?_eq_some.2 ⟨s, hmem, hx⟩
    rw [findOrMake_of_some hslot]
    exact ⟨x, h, hmem, hx, fun i => by rw [hslot?, Option.some_inj], fun _ _ => rfl, fun _ => rfl,
      ⟨rfl, rfl, rfl⟩, fun _ _ => Iff.rfl, fun _ _ => rfl⟩
  | none =>
    have hfree : m.registry.slot? name = none := h.slot?_eq_none.2 hslot
    rw [findOrMake_of_none hslot]
    refine ⟨.unloaded, h.withSlot hslot, List.mem_cons_self .., by simp [Machine.withSlot],
      fun i => by rw [hfree]; simp, fun i hi => (by cases hi), setSlot_unloaded (h.slots_withSlot name) hfree,
      ⟨rfl, rfl, rfl⟩, ?_, ?_⟩
    · intro n hn
      rw [Machine.withSlot, List.mem_cons, or_iff_right]
      rintro rfl
      exact hn rfl
    · intro n hn
      obtain ⟨x, hx, -⟩ := h.cells n hn
      rw [Machine.withSlot, List.getElem?_append_left (List.getElem?_eq_some_iff.1 hx).1]

/-- How a call leaves the machine if no other call is made beside it. -/
structure CallAlone (loadAll : σ → Loader) (m : Machine σ) (c : Call) (m' : Machine σ) : Prop where
  rests : m'.Rests
  done : m'.isDone = true
  store : m'.store = m.store
  answers : m'.answers = [(c, (m.registry.get (loadAll m.store) c.name c.type).1)]
  registry : m'.registry = (m.registry.get (loadAll m.store) c.name c.type).2
  heldLoads : ∀ i, m.registry.slot? c.name = some (.loaded i) → m'.loads = m.loads
  openLoads : m.registry.IsOpen c.name → m'.loads = c.name :: m.loads
  others : ∀ n, n.1 ≠ c.name → (n ∈ m'.names ↔ n ∈ m.names)
  cells : ∀ n ∈ m.names, n.1 ≠ c.name → m'.cells[n.2]? = m.cells[n.2]?
  missing : ∀ n, (m.registry.get (loadAll m.store) c.name c.type).1 = .error (.notFound n) →
    ∀ s, (c.name, s) ∉ m'.names

variable {k : Machine σ}

theorem Found.isOpen (h : Found m name s x k) (hopen : x.isOpen = true) : m.registry.IsOpen name := by
  intro i hi
  rw [(h.loaded i).1 hi] at hopen
  cases hopen

theorem callAll_singleton_eq (h : m.mapHolder = none) : m.callAll loadAll [c] = run loadAll 30
    ((m.findOrMake c.name).2.alone c (.waiting (m.findOrMake c.name).1)) :=
  run_start h 30

/-- The slot holds an instance. -/
theorem callAlone_held (h : m.Rests) {i : Instance} (hslot : m.registry.slot? c.name = some (.loaded i)) :
    CallAlone loadAll m c (m.ended c (heldAnswer c.name c.type i)) where
  rests := ⟨h.keys, h.places, h.cells, h.mapFree⟩
  done := rfl
  store := rfl
  answers := by rw [get_of_held hslot]; rfl
  registry := by rw [get_of_held hslot]; rfl
  heldLoads _ _ := rfl
  openLoads hopen := absurd hslot (hopen i)
  others _ _ := Iff.rfl
  cells _ _ _ := rfl
  missing n hn := by
    rw [get_of_held hslot, heldAnswer] at hn
    split_ifs at hn
    cases hn

/-- The slot of a name written, or taken out of the map. -/
def written (m : Machine σ) (name : String) (s : Nat) : Option Slot → Machine σ
  | some y => m.withCell s ⟨y, none⟩
  | none => m.withoutSlot name s

theorem written_asked (m : Machine σ) (asked name : String) (s nextId : Nat) (slot : Option Slot) :
    (m.asked asked nextId).written name s slot = (m.written name s slot).asked asked nextId := by
  cases slot <;> rfl

theorem Found.place_ne (hf : Found m name s x k) {n : String × Nat} (hn : n ∈ m.names) (hname : n.1 ≠ name) :
    s ≠ n.2 := by
  intro hs
  have heq := List.inj_on_of_nodup_map hf.rests.places hf.mem ((hf.others n hname).2 hn) hs
  exact hname (congrArg Prod.fst heq).symm

/-- What the slot of one name written, or taken out, makes of a machine. -/
structure Written (m : Machine σ) (name : String) (slot : Option Slot) (m' : Machine σ) : Prop where
  rests : m'.Rests
  slots : m'.registry.slots = (m.registry.setSlot name slot).slots
  store : m'.store = m.store
  loads : m'.loads = m.loads
  others : ∀ n, n.1 ≠ name → (n ∈ m'.names ↔ n ∈ m.names)
  cells : ∀ n ∈ m.names, n.1 ≠ name → m'.cells[n.2]? = m.cells[n.2]?
  gone : slot = none → ∀ s, (name, s) ∉ m'.names

theorem Found.cells_withCell (hf : Found m name s x k) {n : String × Nat} (hn : n ∈ m.names)
    (hname : n.1 ≠ name) (cell : Cell) : (k.withCell s cell).cells[n.2]? = m.cells[n.2]? := by
  rw [Machine.cells_withCell hf.cell, if_neg (hf.place_ne hn hname), hf.cells n hn]

theorem Found.written (hf : Found m name s x k) {slot : Option Slot} (hslot : slot ≠ some .discarded) :
    Written m name slot (k.written name s slot) := by
  obtain ⟨hstore, -, hloads⟩ := hf.shared
  cases slot with
  | some y =>
    have hkept : y ≠ .discarded := fun hy => hslot (congrArg some hy)
    exact ⟨hf.rests.withCell hf.mem hkept, (hf.rests.slots_withCell hf.mem y).trans (hf.setSlot _), hstore,
      hloads, hf.others, fun n hn hname => hf.cells_withCell hn hname _, fun h => by cases h⟩
  | none =>
    have hnames : (k.written name s none).names = k.names.filter fun n => n.1 != name :=
      hf.rests.filter_names hf.mem
    refine ⟨hf.rests.withoutSlot hf.mem, (hf.rests.slots_withoutSlot hf.mem).trans (hf.setSlot _), hstore,
      hloads, ?_, fun n hn hname => hf.cells_withCell hn hname _, ?_⟩
    · intro n hname
      rw [hnames, List.mem_filter, ← hf.others n hname]
      exact and_iff_left (bne_iff_ne.2 hname)
    · intro _ s' hmem
      rw [hnames] at hmem
      exact bne_iff_ne.1 (List.mem_filter.1 hmem).2 rfl

/-- A call that has loaded leaves the slot as it is written, and the others as they were. -/
theorem Found.callAlone (hf : Found m c.name s x k) (hopen : x.isOpen = true) (slot : Option Slot)
    (hslot : slot ≠ some .discarded) {nextId : Nat} {answer : Answer}
    (hmissing : ∀ n, answer = .error (.notFound n) → slot = none)
    (hcase : GetCase (loadAll m.store) m.registry c.name c.type answer
      (m.registry.afterWrite c.name slot nextId)) :
    CallAlone loadAll m c (((k.asked c.name nextId).written c.name s slot).ended c answer) := by
  have hw := hf.written hslot
  have hget := hcase.get_eq
  have hnot : ∀ i, m.registry.slot? c.name ≠ some (.loaded i) := hf.isOpen hopen
  have hasked : c.name :: (k.written c.name s slot).loads = c.name :: m.loads := congrArg _ hw.loads
  have hcount : (c.name :: (k.written c.name s slot).loads).length = m.registry.loads + 1 :=
    congrArg List.length hasked
  rw [written_asked]
  exact {
    rests := ⟨hw.rests.keys, hw.rests.places, hw.rests.cells, hw.rests.mapFree⟩
    done := rfl
    store := hw.store
    answers := by rw [hget]; rfl
    registry := by rw [hget]; exact Registry.ext hw.slots rfl hcount
    heldLoads := fun i hi => absurd hi (hnot i)
    openLoads := fun _ => hasked
    others := hw.others
    cells := hw.cells
    missing := fun n hn => by
      rw [hget] at hn
      exact hw.gone (hmissing n hn) }

/-- A call that no other is made beside ends with the answer of `Registry.get`, and leaves the slots
that it says. -/
theorem Rests.callAll_singleton (h : m.Rests) (loadAll : σ → Loader) (c : Call) :
    CallAlone loadAll m c (m.callAll loadAll [c]) := by
  rw [callAll_singleton_eq h.mapFree]
  obtain ⟨x, hf⟩ := h.found c.name
  generalize m.findOrMake c.name = found at hf
  obtain ⟨s, k⟩ := found
  have hstore := hf.shared.1
  have hnextId := hf.shared.2.1
  by_cases hheld : ∃ i, x = .loaded i
  · obtain ⟨i, rfl⟩ := hheld
    obtain rfl := hf.eq_of_loaded i rfl
    show CallAlone loadAll k c (run loadAll (27 + 3) (k.alone c (.waiting s)))
    rw [run_held hf.cell]
    exact callAlone_held h ((hf.loaded i).2 rfl)
  · have hopen : x.isOpen = true := by
      obtain ⟨y, hy, hkept⟩ := hf.rests.cells _ hf.mem
      obtain rfl : x = y := by simpa using hf.cell.symm.trans hy
      cases x with
      | unloaded | failed => rfl
      | loaded i => exact absurd ⟨i, rfl⟩ hheld
      | discarded => exact absurd rfl hkept
    have hask := hf.isOpen hopen
    show CallAlone loadAll m c (run loadAll (26 + 4) (k.alone c (.waiting s)))
    rcases hload : load (loadAll m.store) c.name c.type with e | table
    · by_cases hfound : ∀ n, e ≠ .notFound n
      · rw [run_failed hf.cell hopen (hstore ▸ hload) hfound, hnextId]
        refine hf.callAlone hopen (some (.failed e)) (by simp) ?_ (.failed hask hload hfound)
        intro n hn
        cases hn
        exact absurd rfl (hfound n)
      · obtain ⟨n, rfl⟩ := not_forall_not.1 hfound
        obtain rfl := load_notFound hload
        show CallAlone loadAll m c (run loadAll (24 + 6) (k.alone c (.waiting s)))
        rw [run_missing hf.cell hopen hf.rests.mapFree (hstore ▸ hload), hnextId]
        exact hf.callAlone hopen none (by simp) (fun _ _ => rfl) (.missing hask hload)
    · rw [run_loaded hf.cell hopen (hstore ▸ hload), hnextId]
      exact hf.callAlone hopen (some (.loaded _)) (by simp) (fun n hn => by cases hn) (.loaded hask hload)

/-! ## Machines to start with -/

theorem rests_ofRegistry_empty (store : σ) : (ofRegistry store Registry.empty []).Rests where
  keys := List.nodup_nil
  places := List.nodup_nil
  cells _ hn := by cases hn
  mapFree := rfl

/-- A machine at rest stays so when the store is changed. -/
theorem Rests.change (h : m.Rests) (f : σ → σ) : ({ m with store := f m.store }).Rests :=
  ⟨h.keys, h.places, h.cells, h.mapFree⟩

end TypedTables.Registry.Machine
