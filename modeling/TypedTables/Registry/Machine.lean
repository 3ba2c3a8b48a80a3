/-
Calls of the registry that overlap. The map from names to slots and every slot have a lock each. A
thread finds or makes the slot of its name under the map's lock, then holds the slot's lock while it
looks at the slot and loads the table. When nothing is stored it marks the slot discarded and takes
it out of the map, still holding it; whoever waited for that slot looks the name up again. One step
takes or gives back one lock, or does one thing between; the store may change between steps.
-/
import TypedTables.Registry.Basic

namespace TypedTables.Registry

open TypedTables.Store

/-- A call: the name and the type asked for. -/
structure Call [TableTypes] where
  name : String
  type : Ty

variable [TableTypes]

/-- What a call is answered. -/
abbrev Answer := Except LoadError Instance

/-- Where a thread stands in its current call. `leaving` holds the answer, or nothing when the name
has to be looked up again. -/
inductive Phase where
  | start
  | inMap
  | waiting (slot : Nat)
  | inSlot (slot : Nat)
  | loading (slot : Nat)
  | discarding (slot : Nat)
  | discardingInMap (slot : Nat)
  | leaving (slot : Nat) (answer : Option Answer)

/-- A thread: the calls still to answer, the current one first, where it stands in that one, and the
answers so far, the last one first. -/
structure Thread where
  calls : List Call
  phase : Phase
  answers : List (Call × Answer)

/-- A slot with the thread that holds its lock. -/
structure Cell where
  slot : Slot
  holder : Option Nat

/-- All threads with the state they share. Slots are numbered by their place in `cells`; `loads`
names the tables that the store was asked for, the last one first. -/
structure Machine (σ : Type) where
  store : σ
  names : List (String × Nat)
  cells : List Cell
  mapHolder : Option Nat
  threads : List Thread
  nextId : Nat
  loads : List String

namespace Machine

variable {σ : Type}

/-- The slot number of a name. -/
def slotOf? (m : Machine σ) (name : String) : Option Nat :=
  (m.names.find? fun n => n.1 == name).map Prod.snd

/-- Puts thread `t` into a phase. -/
def setPhase (m : Machine σ) (t : Nat) (p : Phase) : Machine σ :=
  { m with threads := m.threads.modify t fun th => { th with phase := p } }

/-- Ends the current call of thread `t`. -/
def finish (m : Machine σ) (t : Nat) (call : Call) (answer : Answer) : Machine σ :=
  { m with threads := m.threads.modify t fun th =>
      ⟨th.calls.drop 1, .start, (call, answer) :: th.answers⟩ }

/-- Gives the lock of a slot to a thread, or frees it. -/
def setHolder (m : Machine σ) (slot : Nat) (holder : Option Nat) : Machine σ :=
  { m with cells := m.cells.modify slot fun c => { c with holder := holder } }

/-- Writes a slot. -/
def setSlot (m : Machine σ) (slot : Nat) (s : Slot) : Machine σ :=
  { m with cells := m.cells.modify slot fun c => { c with slot := s } }

/-- Whether a thread may take the map's lock now. -/
def mapFree (m : Machine σ) : Bool := m.mapHolder.isNone

/-- The slot number of a name, with a new slot made for a name that has none. -/
def findOrMake (m : Machine σ) (name : String) : Nat × Machine σ :=
  match m.slotOf? name with
  | some slot => (slot, m)
  | none =>
    (m.cells.length, { m with
      names := (name, m.cells.length) :: m.names
      cells := m.cells ++ [⟨.unloaded, none⟩] })

/-- What the end of a load does: an instance or a failure goes into the slot, and a name with
nothing stored has its slot discarded. -/
def afterLoad (m : Machine σ) (t slot : Nat) : Except LoadError AnyTable → Machine σ
  | .ok table =>
    let i : Instance := ⟨m.nextId, table⟩
    ({ m with nextId := m.nextId + 1 }.setSlot slot (.loaded i)).setPhase t
      (.leaving slot (some (.ok i)))
  | .error (.notFound _) => (m.setSlot slot .discarded).setPhase t (.discarding slot)
  | .error e =>
    (m.setSlot slot (.failed e)).setPhase t (.leaving slot (some (.error e)))

/-- One step of thread `t` in its current call; `none` if it waits for a lock. -/
def stepCall (loadAll : σ → Loader) (m : Machine σ) (t : Nat) (call : Call) :
    Phase → Option (Machine σ)
  | .start => if m.mapFree then some ({ m with mapHolder := some t }.setPhase t .inMap) else none
  | .inMap =>
    let (slot, m) := m.findOrMake call.name
    some ({ m with mapHolder := none }.setPhase t (.waiting slot))
  | .waiting slot =>
    match m.cells[slot]? with
    | some ⟨_, none⟩ => some ((m.setHolder slot (some t)).setPhase t (.inSlot slot))
    | _ => none
  | .inSlot slot =>
    match m.cells[slot]? with
    | some ⟨.loaded i, _⟩ =>
      some (m.setPhase t (.leaving slot ((Slot.loaded i).answer? call.name call.type)))
    | some ⟨.discarded, _⟩ => some (m.setPhase t (.leaving slot none))
    | _ => some (m.setPhase t (.loading slot))
  | .loading slot =>
    let outcome := load (loadAll m.store) call.name call.type
    some ({ m with loads := call.name :: m.loads }.afterLoad t slot outcome)
  | .discarding slot =>
    if m.mapFree then some ({ m with mapHolder := some t }.setPhase t (.discardingInMap slot))
    else none
  | .discardingInMap slot =>
    let names := m.names.filter fun n => n != (call.name, slot)
    some ({ m with names := names, mapHolder := none }.setPhase t
      (.leaving slot (some (.error (.notFound call.name)))))
  | .leaving slot none => some ((m.setHolder slot none).setPhase t .start)
  | .leaving slot (some answer) => some ((m.setHolder slot none).finish t call answer)

/-- One step of thread `t`; `none` if it waits for a lock or has no call left. -/
def step? (loadAll : σ → Loader) (m : Machine σ) (t : Nat) : Option (Machine σ) :=
  match m.threads[t]? with
  | some ⟨call :: _, phase, _⟩ => stepCall loadAll m t call phase
  | _ => none

/-- Whether every call is answered. -/
def isDone (m : Machine σ) : Bool := m.threads.all fun th => th.calls.isEmpty

/-- One round in which every thread takes a step if it can. -/
def round (loadAll : σ → Loader) (m : Machine σ) : Machine σ :=
  (List.range m.threads.length).foldl (fun m t => (step? loadAll m t).getD m) m

/-- Rounds until every call is answered, at most as many as the fuel. -/
def run (loadAll : σ → Loader) : Nat → Machine σ → Machine σ
  | 0, m => m
  | fuel + 1, m => if m.isDone then m else run loadAll fuel (round loadAll m)

/-- The machine of a registry, with threads about to make their calls. -/
def ofRegistry (store : σ) (r : Registry) (calls : List (List Call)) : Machine σ where
  store := store
  names := r.slots.mapIdx fun i s => (s.1, i)
  cells := r.slots.map fun s => ⟨s.2, none⟩
  mapHolder := none
  threads := calls.map fun cs => ⟨cs, .start, []⟩
  nextId := r.nextId
  loads := []

/-- What the machine has of a registry: the slots of the names, and how often the store was asked. -/
def registry (m : Machine σ) : Registry where
  slots := m.names.filterMap fun n => (m.cells[n.2]?).map fun c => (n.1, c.slot)
  nextId := m.nextId
  loads := m.loads.length

/-- The answers that the threads were given. -/
def answers (m : Machine σ) : List (Call × Answer) := m.threads.flatMap Thread.answers

/-- Makes calls at once, each from a thread of its own. In every round a thread steps; a thread needs
at most eight steps before it is answered or sent back to look its name up again, and it is sent back
by a discarded slot only, of which there are at most as many as calls. -/
def callAll (loadAll : σ → Loader) (m : Machine σ) (calls : List Call) : Machine σ :=
  let n := calls.length
  run loadAll (8 * (n + 1) * (n + 1)) { m with threads := calls.map fun c => ⟨[c], .start, []⟩ }

/-- The same call from `n` threads at once: their answers, and the registry after them. -/
def callFromAll (loadAll : σ → Loader) (store : σ) (r : Registry) (n : Nat) (call : Call) :
    List Answer × Registry :=
  let m := (ofRegistry store r []).callAll loadAll (List.replicate n call)
  (m.answers.map Prod.snd, { m.registry with loads := r.loads + m.loads.length })

end Machine

end TypedTables.Registry
