/-
Binding rows: each row is made into a record as a whole or not at all. A row that does not make a
record is reported and left out, or ends the binding, as the policy says.
-/
import TypedTables.Binding.Coercion

namespace TypedTables.Binding

open TypedTables.Csv

/-- What becomes of a row that does not make a record. -/
inductive Policy where
  | skipInvalidRows
  | failFast
  deriving DecidableEq, Repr, Inhabited

def Policy.name : Policy → String
  | .skipInvalidRows => "SkipInvalidRows"
  | .failFast => "FailFast"

structure Rejection where
  line : Nat
  error : CoercionError
  deriving DecidableEq, Repr

def Rejection.message (r : Rejection) : String :=
  "line " ++ toString r.line ++ ": " ++ r.error.message

/-- The row that ended the binding of a table. -/
structure BindError where
  table : String
  line : Nat
  error : CoercionError
  deriving DecidableEq, Repr

def BindError.message (e : BindError) : String :=
  "table " ++ e.table ++ ", line " ++ toString e.line ++ ": " ++ e.error.message

/-- The records made, and the rows left out. -/
structure Bound (ρ : Type) where
  records : List ρ
  rejected : List Rejection
  deriving DecidableEq, Repr

namespace Bound

variable {ρ : Type}

def addRecord (r : ρ) (b : Bound ρ) : Bound ρ := ⟨r :: b.records, b.rejected⟩

def addRejection (r : Rejection) (b : Bound ρ) : Bound ρ := ⟨b.records, r :: b.rejected⟩

end Bound

/-- Makes the rows of a table into records, in order. -/
def bindRows {ρ : Type} (policy : Policy) (table : String)
    (build : Row → Except CoercionError ρ) : List Row → Except BindError (Bound ρ)
  | [] => .ok ⟨[], []⟩
  | row :: rest =>
    match build row with
    | .ok record => (bindRows policy table build rest).map (Bound.addRecord record)
    | .error e =>
      match policy with
      | .failFast => .error ⟨table, row.line, e⟩
      | .skipInvalidRows =>
        (bindRows policy table build rest).map (Bound.addRejection ⟨row.line, e⟩)

end TypedTables.Binding
