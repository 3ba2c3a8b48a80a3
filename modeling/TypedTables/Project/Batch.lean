/-
Batches: the table files of a pass, worked on one after the other. A file that fails is reported
with its error and does not stop the others.
-/
import TypedTables.Project.NameClaims

namespace TypedTables.Project

open TypedTables.Files TypedTables.Schema

/-- A table file that failed. -/
structure Failure (ε : Type) where
  table : String
  path : Path
  error : ε
  deriving DecidableEq, Repr

def Failure.message {ε : Type} (describe : ε → String) (f : Failure ε) : String :=
  f.table ++ " (" ++ f.path.text ++ "): " ++ describe f.error

/-- What a pass made of its files: the results and the failures, each in order of the files. -/
structure Batch (α ε : Type) where
  done : List α
  failures : List (Failure ε)
  deriving DecidableEq, Repr

namespace Batch

variable {σ α ε : Type}

def empty : Batch α ε := ⟨[], []⟩

/-- Puts what came of a file before the rest. -/
def add (f : TableFile) (outcome : Except ε α) (b : Batch α ε) : Batch α ε :=
  match outcome with
  | .ok a => ⟨a :: b.done, b.failures⟩
  | .error e => ⟨b.done, ⟨f.name, f.path, e⟩ :: b.failures⟩

/-- Whether a file failed. -/
def hasFailures (b : Batch α ε) : Bool := !b.failures.isEmpty

/-- Works on one file, if it owns its names. -/
def runFile (ofInput : InputError → ε) (step : TableFile → TableNames → σ → Except ε α × σ)
    (f : TableFile) (claim : Except InputError TableNames) (s : σ) : Except ε α × σ :=
  match claim with
  | .ok names => step f names s
  | .error e => (.error (ofInput e), s)

/-- Works on files in order, each with the state that the one before it left behind. -/
def run (ofInput : InputError → ε) (step : TableFile → TableNames → σ → Except ε α × σ) :
    List (TableFile × Except InputError TableNames) → σ → Batch α ε × σ
  | [], s => (empty, s)
  | (f, claim) :: rest, s =>
    let (outcome, s) := runFile ofInput step f claim s
    let (batch, s) := run ofInput step rest s
    (batch.add f outcome, s)

end Batch

end TypedTables.Project
