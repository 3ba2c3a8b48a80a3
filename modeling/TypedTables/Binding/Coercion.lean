/-
Coercing cells: the text of a cell as a value of a column's type. Numbers, truth values and literals
are trimmed first, strings are taken as they stand. A cell that does not fit is reported with its
column, its text and the reason.
-/
import TypedTables.Csv.Row
import TypedTables.Decimal.Numeral
import TypedTables.Json.Value
import TypedTables.Schema.Basic
import TypedTables.Text.Quoted

namespace TypedTables.Binding

open TypedTables.Text TypedTables.Csv TypedTables.Decimal TypedTables.Json TypedTables.Schema

/-! ## Errors -/

inductive Reason where
  | notAnInteger
  | notANumber
  | notABoolean
  | unknownLiteral
  | missingColumn
  deriving DecidableEq, Repr

def Reason.message : Reason → String
  | .notAnInteger => "is not an integer"
  | .notANumber => "is not a finite number"
  | .notABoolean => "is not a boolean (expected true/false)"
  | .unknownLiteral => "is not a known enum literal"
  | .missingColumn => "is missing from the row"

/-- A cell that does not fit its column. `raw` is the text of the cell, empty for a missing one. -/
structure CoercionError where
  column : String
  raw : String
  reason : Reason
  deriving DecidableEq, Repr

def CoercionError.message (e : CoercionError) : String :=
  "column '" ++ e.column ++ "': " ++ quoted e.raw ++ " " ++ e.reason.message

/-! ## Cells -/

/-- A cell under its column's name as a value: `read` is applied to the text without the blanks
around it. -/
def readCell {α : Type} (read : List Char → Option α) (reason : Reason) (row : Row)
    (column : String) : Except CoercionError α :=
  match row.get? column with
  | none => .error ⟨column, "", .missingColumn⟩
  | some raw =>
    match read (trimChars raw.toList) with
    | some a => .ok a
    | none => .error ⟨column, raw, reason⟩

section

variable {α : Type} {read : List Char → Option α} {reason : Reason} {row : Row} {column : String}

theorem readCell_ok_iff {a : α} : readCell read reason row column = .ok a ↔
    ∃ raw, row.get? column = some raw ∧ read (trimChars raw.toList) = some a := by
  unfold readCell
  cases hcell : row.get? column with
  | none => simp
  | some raw => cases hread : read (trimChars raw.toList) <;> simp [hread]

theorem readCell_error_iff {e : CoercionError} : readCell read reason row column = .error e ↔
    (row.get? column = none ∧ e = ⟨column, "", .missingColumn⟩) ∨
      ∃ raw, row.get? column = some raw ∧ read (trimChars raw.toList) = none ∧
        e = ⟨column, raw, reason⟩ := by
  unfold readCell
  cases hcell : row.get? column with
  | none => simp [eq_comm]
  | some raw => cases hread : read (trimChars raw.toList) <;> simp [hread, eq_comm]

end

/-- An integer of a range. -/
def intInRange? (low high : Int) (cs : List Char) : Option Int :=
  (readInt? cs).filter fun n => low ≤ n ∧ n ≤ high

def intRange : Int × Int := (-0x80000000, 0x7FFFFFFF)

def longRange : Int × Int := (-0x8000000000000000, 0x7FFFFFFFFFFFFFFF)

def intCell (row : Row) (column : String) : Except CoercionError Int :=
  readCell (intInRange? intRange.1 intRange.2) .notAnInteger row column

def longCell (row : Row) (column : String) : Except CoercionError Int :=
  readCell (intInRange? longRange.1 longRange.2) .notAnInteger row column

/-- A finite number of a binary format. -/
def finite? (f : Format) (cs : List Char) : Option Binary :=
  ((Numeral.read? cs).bind fun n => n.toBinary f).filter Binary.isFinite

def floatCell (row : Row) (column : String) : Except CoercionError Binary :=
  readCell (finite? .single) .notANumber row column

def doubleCell (row : Row) (column : String) : Except CoercionError Binary :=
  readCell (finite? .double) .notANumber row column

/-- The words for the truth values, in any case. -/
def bool? (cs : List Char) : Option Bool :=
  let word := cs.map Char.toLower
  if word = "true".toList then some true
  else if word = "false".toList then some false
  else none

def boolCell (row : Row) (column : String) : Except CoercionError Bool :=
  readCell bool? .notABoolean row column

def stringCell (row : Row) (column : String) : Except CoercionError String :=
  match row.get? column with
  | none => .error ⟨column, "", .missingColumn⟩
  | some raw => .ok raw

/-- A value of an enum, found by its exact text. -/
def enumCell {α : Type} (ofLiteral? : String → Option α) (row : Row) (column : String) :
    Except CoercionError α :=
  readCell (fun cs => ofLiteral? (String.ofList cs)) .unknownLiteral row column

/-- One of a list of texts, found by exact comparison. -/
def literalCell (literals : List String) (row : Row) (column : String) :
    Except CoercionError String :=
  enumCell (fun text => if literals.contains text then some text else none) row column

/-- A cell as a JSON value by the kind of its column. A 32-bit number is widened to 64 bits. -/
def valueCell (c : Column) (row : Row) : Except CoercionError Value :=
  match c.kind with
  | .scalar .int => (intCell row c.name).map fun n => .number (.int n)
  | .scalar .long => (longCell row c.name).map fun n => .number (.int n)
  | .scalar .float => (floatCell row c.name).map fun x => .number (.double (x.toFormat .double))
  | .scalar .double => (doubleCell row c.name).map fun x => .number (.double x)
  | .scalar .string => (stringCell row c.name).map .string
  | .scalar .bool => (boolCell row c.name).map .bool
  | .enumeration e => (literalCell e.texts row c.name).map .string

end TypedTables.Binding
