/-
Reading JSON text by the shape that is expected of it. The first fault from the left decides: text
that ends early, text that is not JSON, or JSON of another shape. A record may be given by names in
any order, unknown ones being stepped over, or as an array of its fields in order; a choice by the
name of a bare variant or as an object with one member. The value read has the fields of a record in
their declared order and the members of a free object in ascending order, the last of equal names.

Every function takes fuel, one unit for each call; `decode` gives two units for each symbol, and
every second call steps over a symbol. `depth` is the number of brackets that may still be opened.
-/
import TypedTables.Json.Scanner

namespace TypedTables.Json

open TypedTables.Decimal TypedTables.Text.Utf8

/-- What is expected at a place in the text. -/
inductive Shape where
  | any
  | members
  | string
  | bool
  | int (low high : Int)
  | single
  | double
  | list (item : Shape)
  | record (fields : List (String × Shape))
  | choice (variants : List (String × Option Shape))

/-! ## Pieces -/

/-- The next symbol behind blanks and what follows it. -/
def next (s : Symbols) : Except Fault (Symbol × Symbols) :=
  match skipSpace s with
  | [] => .error .truncated
  | c :: rest => .ok (c, rest)

/-- Whether a number starts with this symbol. -/
def startsNumber (c : Symbol) : Bool := c == some '-' || isDigit c

/-- The fault where a value starts with symbol `c` but must be of another shape: that of the value
itself if it is faulty, brackets being looked at no further. -/
def mismatchAt (c : Symbol) (rest : Symbols) : Fault :=
  let fault {α : Type} : Except Fault α → Fault
    | .ok _ => .mismatch
    | .error e => e
  if c = some 'n' then fault (word "ull".toList rest)
  else if c = some 't' then fault (word "rue".toList rest)
  else if c = some 'f' then fault (word "alse".toList rest)
  else if startsNumber c then fault (number (c :: rest))
  else if c = some '"' then fault (string rest)
  else if c = some '[' ∨ c = some '\x7b' then .mismatch
  else .notJson

/-- Steps over a colon. -/
def colon (s : Symbols) : Except Fault Symbols :=
  match next s with
  | .ok (c, rest) => if c = some ':' then .ok rest else .error .notJson
  | .error e => .error e

/-- Where the next item of a list starts, or `none` with what follows the closing bracket. -/
def nextItem (first : Bool) (s : Symbols) : Except Fault (Bool × Symbols) :=
  match next s with
  | .error e => .error e
  | .ok (c, rest) =>
    if c = some ']' then .ok (false, rest)
    else if first then .ok (true, c :: rest)
    else if c = some ',' then
      match next rest with
      | .error e => .error e
      | .ok (d, tail) => if d = some ']' then .error .notJson else .ok (true, d :: tail)
    else .error .notJson

/-- What follows the opening quote of the next name in an object, or `false` with what follows the
closing brace. -/
def nextName (first : Bool) (s : Symbols) : Except Fault (Bool × Symbols) :=
  match next s with
  | .error e => .error e
  | .ok (c, rest) =>
    if c = some '\x7d' then .ok (false, rest)
    else if first then if c = some '"' then .ok (true, rest) else .error .notJson
    else if c = some ',' then
      match next rest with
      | .error e => .error e
      | .ok (d, tail) => if d = some '"' then .ok (true, tail) else .error .notJson
    else .error .notJson

/-! ## Stepping over values -/

mutual

/-- Steps over any value. -/
def skipValue : Nat → Symbols → Except Fault Symbols
  | 0, _ => .error .notJson
  | fuel + 1, s =>
    match next s with
    | .error e => .error e
    | .ok (c, rest) =>
      if c = some 'n' then word "ull".toList rest
      else if c = some 't' then word "rue".toList rest
      else if c = some 'f' then word "alse".toList rest
      else if startsNumber c then skipNumber (c :: rest)
      else if c = some '"' then skipStringFrom .plain rest
      else if c = some '[' then skipItems fuel true rest
      else if c = some '\x7b' then skipMembers fuel true rest
      else .error .notJson

/-- Steps over the items of a list and its closing bracket. -/
def skipItems : Nat → Bool → Symbols → Except Fault Symbols
  | 0, _, _ => .error .notJson
  | fuel + 1, first, s =>
    match nextItem first s with
    | .error e => .error e
    | .ok (false, rest) => .ok rest
    | .ok (true, rest) =>
      match skipValue fuel rest with
      | .error e => .error e
      | .ok rest => skipItems fuel false rest

/-- Steps over the members of an object and its closing brace. -/
def skipMembers : Nat → Bool → Symbols → Except Fault Symbols
  | 0, _, _ => .error .notJson
  | fuel + 1, first, s =>
    match nextName first s with
    | .error e => .error e
    | .ok (false, rest) => .ok rest
    | .ok (true, rest) => do
      let rest ← colon (← skipStringFrom .plain rest)
      match skipValue fuel rest with
      | .error e => .error e
      | .ok rest => skipMembers fuel false rest

end

/-! ## Reading values -/

/-- A number as a value of an integer shape. -/
def intIn (low high : Int) : Number → Except Fault Value
  | .int n => if low ≤ n ∧ n ≤ high then .ok (.number (.int n)) else .error .mismatch
  | _ => .error .mismatch

/-- A number as a binary number of a format. -/
def Number.toBinary (f : Format) : Number → Binary
  | .int n => f.ofInt n
  | .single x => x.toFormat f
  | .double x => x.toFormat f

/-- The fields of a record in their declared order; a fault if one is missing. -/
def collect (found : Members) : List (String × Shape) → Except Fault Members
  | [] => .ok []
  | (name, _) :: rest =>
    match member? name found, collect found rest with
    | some v, .ok vs => .ok ((name, v) :: vs)
    | _, _ => .error .mismatch

/-- The shape under a name. -/
def shapeOf? {α : Type} (name : String) (fields : List (String × α)) : Option α :=
  (fields.find? fun f => f.1 == name).map Prod.snd

/-- What closes a record given as an array. -/
def closeArray (s : Symbols) : Except Fault Symbols :=
  match next s with
  | .error e => .error e
  | .ok (c, rest) => if c = some ']' then .ok rest else .error .notJson

/-- What closes a choice given as an object. -/
def closeObject (s : Symbols) : Except Fault Symbols :=
  match next s with
  | .error e => .error e
  | .ok (c, rest) => if c = some '\x7d' then .ok rest else .error .notJson

/-- Replaces the value read. -/
def yields (v : Value) : Except Fault Symbols → Except Fault (Value × Symbols)
  | .ok rest => .ok (v, rest)
  | .error e => .error e

/-- Reads the null that stands for the content of a bare variant. -/
def readNull (s : Symbols) : Except Fault Symbols :=
  match next s with
  | .error e => .error e
  | .ok (c, rest) =>
    if c = some 'n' then word "ull".toList rest else .error (mismatchAt c rest)

mutual

/-- Reads a value of a shape. -/
def read : Nat → Nat → Shape → Symbols → Except Fault (Value × Symbols)
  | 0, _, _, _ => .error .notJson
  | fuel + 1, depth, shape, s =>
    match next s with
    | .error e => .error e
    | .ok (c, rest) =>
      match shape with
      | .any =>
        if c = some 'n' then yields .null (word "ull".toList rest)
        else if c = some 't' then yields (.bool true) (word "rue".toList rest)
        else if c = some 'f' then yields (.bool false) (word "alse".toList rest)
        else if startsNumber c then do
          let (n, rest) ← number (c :: rest)
          return (.number n, rest)
        else if c = some '"' then do
          let (text, rest) ← string rest
          return (.string text, rest)
        else if c = some '[' then
          if depth = 0 then .error .notJson else do
            let (vs, rest) ← readItems fuel (depth - 1) .any true rest
            return (.array vs, rest)
        else if c = some '\x7b' then
          if depth = 0 then .error .notJson else do
            let (ms, rest) ← readMembers fuel (depth - 1) true [] rest
            return (.object ms, rest)
        else .error .notJson
      | .members =>
        if c = some '\x7b' then
          if depth = 0 then .error .notJson else do
            let (ms, rest) ← readMembers fuel (depth - 1) true [] rest
            return (.object ms, rest)
        else .error (mismatchAt c rest)
      | .string =>
        if c = some '"' then do
          let (text, rest) ← string rest
          return (.string text, rest)
        else .error (mismatchAt c rest)
      | .bool =>
        if c = some 't' then yields (.bool true) (word "rue".toList rest)
        else if c = some 'f' then yields (.bool false) (word "alse".toList rest)
        else .error (mismatchAt c rest)
      | .int low high =>
        if startsNumber c then do
          let (n, rest) ← number (c :: rest)
          return (← intIn low high n, rest)
        else .error (mismatchAt c rest)
      | .single =>
        if startsNumber c then do
          let (n, rest) ← number (c :: rest)
          return (.number (.single (n.toBinary .single)), rest)
        else .error (mismatchAt c rest)
      | .double =>
        if startsNumber c then do
          let (n, rest) ← number (c :: rest)
          return (.number (.double (n.toBinary .double)), rest)
        else .error (mismatchAt c rest)
      | .list item =>
        if c = some '[' then
          if depth = 0 then .error .notJson else do
            let (vs, rest) ← readItems fuel (depth - 1) item true rest
            return (.array vs, rest)
        else .error (mismatchAt c rest)
      | .record fields =>
        if c = some '[' then
          if depth = 0 then .error .notJson else do
            let (ms, rest) ← readFields fuel (depth - 1) fields true rest
            return (.object ms, rest)
        else if c = some '\x7b' then
          if depth = 0 then .error .notJson else do
            let (ms, rest) ← readNamed fuel (depth - 1) fields true [] rest
            return (.object ms, rest)
        else .error (mismatchAt c rest)
      | .choice variants =>
        if c = some '"' then do
          let (name, rest) ← string rest
          match shapeOf? name variants with
          | some none => return (.string name, rest)
          | _ => .error .mismatch
        else if c = some '\x7b' then
          if depth = 0 then .error .notJson
          else match next rest with
            | .error e => .error e
            | .ok (d, tail) =>
              if d = some '"' then do
                let (name, rest) ← string tail
                match shapeOf? name variants with
                | none => .error .mismatch
                | some none =>
                  let rest ← readNull (← colon rest)
                  yields (.string name) (closeObject rest)
                | some (some content) =>
                  let (v, rest) ← read fuel (depth - 1) content (← colon rest)
                  yields (.object [(name, v)]) (closeObject rest)
              else .error .notJson
        else .error .notJson

/-- Reads the items of a list up to its closing bracket. -/
def readItems : Nat → Nat → Shape → Bool → Symbols → Except Fault (List Value × Symbols)
  | 0, _, _, _, _ => .error .notJson
  | fuel + 1, depth, item, first, s =>
    match nextItem first s with
    | .error e => .error e
    | .ok (false, rest) => .ok ([], rest)
    | .ok (true, rest) => do
      let (v, rest) ← read fuel depth item rest
      let (vs, rest) ← readItems fuel depth item false rest
      return (v :: vs, rest)

/-- Reads the members of a free object up to its closing brace, into those read before. -/
def readMembers : Nat → Nat → Bool → Members → Symbols → Except Fault (Members × Symbols)
  | 0, _, _, _, _ => .error .notJson
  | fuel + 1, depth, first, found, s =>
    match nextName first s with
    | .error e => .error e
    | .ok (false, rest) => .ok (found, rest)
    | .ok (true, rest) => do
      let (name, rest) ← string rest
      let (v, rest) ← read fuel depth .any (← colon rest)
      readMembers fuel depth false (insertMember name v found) rest

/-- Reads the fields of a record given as an array, each at its place. -/
def readFields :
    Nat → Nat → List (String × Shape) → Bool → Symbols → Except Fault (Members × Symbols)
  | 0, _, _, _, _ => .error .notJson
  | _ + 1, _, [], _, s =>
    match closeArray s with
    | .error e => .error e
    | .ok rest => .ok ([], rest)
  | fuel + 1, depth, (name, shape) :: fields, first, s =>
    match nextItem first s with
    | .error e => .error e
    | .ok (false, _) => .error .mismatch
    | .ok (true, rest) => do
      let (v, rest) ← read fuel depth shape rest
      let (ms, rest) ← readFields fuel depth fields false rest
      return ((name, v) :: ms, rest)

/-- Reads the fields of a record given by names, into those found before. -/
def readNamed :
    Nat → Nat → List (String × Shape) → Bool → Members → Symbols →
      Except Fault (Members × Symbols)
  | 0, _, _, _, _, _ => .error .notJson
  | fuel + 1, depth, fields, first, found, s =>
    match nextName first s with
    | .error e => .error e
    | .ok (false, rest) => do
      return (← collect found fields, rest)
    | .ok (true, rest) => do
      let (name, rest) ← string rest
      match shapeOf? name fields with
      | none =>
        let rest ← skipValue fuel (← colon rest)
        readNamed fuel depth fields false found rest
      | some shape =>
        if (member? name found).isSome then .error .mismatch
        else
          let (v, rest) ← read fuel depth shape (← colon rest)
          readNamed fuel depth fields false (found ++ [(name, v)]) rest

end

/-! ## Whole texts -/

/-- How many brackets may be open at once. -/
def maxDepth : Nat := 127

/-- Reads a text that holds one value of a shape and nothing else but blanks. -/
def decode (shape : Shape) (s : Symbols) : Except Fault Value := do
  let (v, rest) ← read (2 * s.length + 2) maxDepth shape s
  if (skipSpace rest).isEmpty then return v else throw .notJson

end TypedTables.Json
