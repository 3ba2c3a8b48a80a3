/-
Calls that follow one another, while others change the objects in the store between them. Each call
has a thread of its own that runs to its end before anything else is done; a session keeps the machine
and all that was done. A call is answered as `Registry.get` answers it, and leaves the slots that it
leaves (`act_call`).
-/
import Mathlib.Data.List.Induction
import TypedTables.Proofs.Registry.Alone

namespace TypedTables.Registry

variable [TableTypes] {σ : Type}

/-- What is done next: a call is made, or the objects in the store are changed. -/
inductive Action (σ : Type) where
  | call (c : Call)
  | change (f : σ → σ)

/-- What was done: a call with its answer, or a change. -/
inductive Entry (σ : Type) where
  | answered (c : Call) (answer : Answer)
  | changed (f : σ → σ)

def Entry.action : Entry σ → Action σ
  | .answered c _ => .call c
  | .changed f => .change f

/-- The call of an entry with its answer. -/
def Entry.answer? : Entry σ → Option (Call × Answer)
  | .answered c answer => some (c, answer)
  | .changed _ => none

/-- The actions that a log tells of, in the order in which they were done. -/
def actionsOf (log : List (Entry σ)) : List (Action σ) := (log.map Entry.action).reverse

/-- The calls of a log with their answers, the last first. -/
def answersOf (log : List (Entry σ)) : List (Call × Answer) := log.filterMap Entry.answer?

/-- The store after all that a log tells of. -/
def storeAfter (store : σ) : List (Entry σ) → σ
  | [] => store
  | .answered _ _ :: earlier => storeAfter store earlier
  | .changed f :: earlier => f (storeAfter store earlier)

theorem actionsOf_cons (x : Entry σ) (log : List (Entry σ)) :
    actionsOf (x :: log) = actionsOf log ++ [x.action] := by
  simp [actionsOf]

/-- A machine, and all that was done with it so far, the last first. -/
structure Session (σ : Type) where
  machine : Machine σ
  log : List (Entry σ)

namespace Session

def start (store : σ) : Session σ := ⟨Machine.ofRegistry store Registry.empty [], []⟩

/-- A call is made by a thread of its own, and logged with what it was answered. -/
def act (loadAll : σ → Loader) (s : Session σ) : Action σ → Session σ
  | .call c =>
    let m := s.machine.callAll loadAll [c]
    ⟨m, m.answers.map (fun a => .answered a.1 a.2) ++ s.log⟩
  | .change f => ⟨{ s.machine with store := f s.machine.store }, .changed f :: s.log⟩

/-- The session after some actions in order, which starts with no slots. -/
def run (loadAll : σ → Loader) (store : σ) (actions : List (Action σ)) : Session σ :=
  actions.foldl (act loadAll) (start store)

/-- The slots of the names. -/
def registry (s : Session σ) : Registry := s.machine.registry

/-- The calls so far with their answers, the last first. -/
def answers (s : Session σ) : List (Call × Answer) := answersOf s.log

variable {loadAll : σ → Loader} {s : Session σ} {c : Call}

theorem run_append_singleton (loadAll : σ → Loader) (store : σ) (actions : List (Action σ))
    (a : Action σ) : run loadAll store (actions ++ [a]) = (run loadAll store actions).act loadAll a := by
  simp [run]

/-- No call is left unfinished in a run. -/
theorem rests_run (loadAll : σ → Loader) (store : σ) (actions : List (Action σ)) :
    (run loadAll store actions).machine.Rests := by
  induction actions using List.reverseRecOn with
  | nil => exact Machine.rests_ofRegistry_empty store
  | append_singleton actions a ih =>
    rw [run_append_singleton]
    cases a with
    | change f => exact ih.change f
    | call c => exact (ih.callAll_singleton loadAll c).rests

/-- What a call adds to the log and does to the machine. -/
structure Called (loadAll : σ → Loader) (s : Session σ) (c : Call) (answer : Answer) (s' : Session σ) :
    Prop where
  log : s'.log = .answered c answer :: s.log
  slots : GetCase (loadAll s.machine.store) s.registry c.name c.type answer s'.registry
  alone : Machine.CallAlone loadAll s.machine c s'.machine

theorem act_call (h : s.machine.Rests) (loadAll : σ → Loader) (c : Call) :
    ∃ answer, Called loadAll s c answer (s.act loadAll (.call c)) := by
  have halone := h.callAll_singleton loadAll c
  refine ⟨(s.registry.get (loadAll s.machine.store) c.name c.type).1, ?_, ?_, halone⟩
  · rw [act, halone.answers]; rfl
  · show GetCase _ _ _ _ _ (s.machine.callAll loadAll [c]).registry
    rw [halone.registry]
    exact get_cases ..

end Session

end TypedTables.Registry
