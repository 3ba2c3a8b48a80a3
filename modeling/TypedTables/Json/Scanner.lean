/-
Reading the scalars of JSON text from its symbols: words, strings and numbers. Each has a strict
reading, which yields the value, and a lenient one, which only steps over it; the lenient one does
not look at the characters that the escapes and bytes of a string make up, nor at the size of a
number.
-/
import TypedTables.Decimal.Numeral
import TypedTables.Json.Value
import TypedTables.Text.Utf8

namespace TypedTables.Json

open TypedTables.Decimal TypedTables.Text.Utf8

/-- What is wrong with a text at its first fault: it ends early, it is not JSON, or it is JSON of
another shape than the one asked for. -/
inductive Fault where
  | truncated
  | notJson
  | mismatch
  deriving DecidableEq, Repr

/-- The symbols not yet read. -/
abbrev Symbols := List Symbol

/-! ## Blanks and words -/

/-- The four blanks of JSON. -/
def isSpace : Symbol → Bool
  | some c => c == ' ' || c == '\n' || c == '\t' || c == '\r'
  | none => false

/-- Steps over blanks. -/
def skipSpace (s : Symbols) : Symbols := s.dropWhile isSpace

/-- Steps over the characters of a word. -/
def word : List Char → Symbols → Except Fault Symbols
  | [], s => .ok s
  | _ :: _, [] => .error .truncated
  | _ :: _, none :: _ => .error .notJson
  | c :: cs, some d :: s => if c = d then word cs s else .error .notJson

/-! ## Strings -/

def hexValue? : Symbol → Option Nat
  | none => none
  | some c =>
    if '0' ≤ c ∧ c ≤ '9' then some (c.toNat - 48)
    else if 'a' ≤ c ∧ c ≤ 'f' then some (c.toNat - 87)
    else if 'A' ≤ c ∧ c ≤ 'F' then some (c.toNat - 55)
    else none

/-- The character behind a backslash that is escaped by one letter. -/
def shortMeaning? (c : Char) : Option Char :=
  if c = '"' then some '"'
  else if c = '\\' then some '\\'
  else if c = '/' then some '/'
  else if c = 'b' then some '\x08'
  else if c = 'f' then some '\x0c'
  else if c = 'n' then some '\n'
  else if c = 'r' then some '\r'
  else if c = 't' then some '\t'
  else none

/-- Whether four more bytes follow, as an escape by code unit needs. -/
def hasFourBytes (s : Symbols) : Bool := 4 ≤ sizeInBytes (s.take 4)

/-- What the reader of a string stands in: plain text, behind a backslash, among the digits of a
code unit (the first half of a pair before it, if there is one, the digits still to come and the
value so far), or between the two halves of a pair, where a backslash and a `u` must come. -/
inductive StringMode where
  | plain
  | escape
  | unit (high : Option Nat) (more value : Nat)
  | pairBackslash (high : Nat)
  | pairLetter (high : Nat)

/-- What a complete code unit leads to: a character, or the wait for the second half of a pair. -/
def unitMeaning (high : Option Nat) (value : Nat) : Except Fault (Char ⊕ Nat) :=
  match high with
  | none =>
    if 0xDC00 ≤ value ∧ value ≤ 0xDFFF then .error .notJson
    else if 0xD800 ≤ value ∧ value ≤ 0xDBFF then .ok (.inr value)
    else .ok (.inl (Char.ofNat value))
  | some h =>
    if 0xDC00 ≤ value ∧ value ≤ 0xDFFF then
      .ok (.inl (Char.ofNat (0x10000 + (h - 0xD800) * 0x400 + (value - 0xDC00))))
    else .error .notJson

/-- Puts a character before the text of a reading. -/
def prepend (c : Char) : Except Fault (List Char × Symbols) → Except Fault (List Char × Symbols)
  | .ok (cs, rest) => .ok (c :: cs, rest)
  | .error e => .error e

/-- The characters up to the closing quote, and what follows the quote. A byte that belongs to no
character is a fault once the string is known to close. -/
def stringFrom : StringMode → Symbols → Except Fault (List Char × Symbols)
  | _, [] => .error .truncated
  | .plain, none :: rest =>
    match stringFrom .plain rest with
    | .ok _ => .error .notJson
    | .error e => .error e
  | .plain, some c :: rest =>
    if c = '"' then .ok ([], rest)
    else if c = '\\' then stringFrom .escape rest
    else if c.toNat < 0x20 then .error .notJson
    else prepend c (stringFrom .plain rest)
  | .escape, some c :: rest =>
    if c = 'u' then
      if hasFourBytes rest then stringFrom (.unit none 3 0) rest else .error .truncated
    else match shortMeaning? c with
      | some d => prepend d (stringFrom .plain rest)
      | none => .error .notJson
  | .unit high more value, d :: rest =>
    match hexValue? d, more with
    | none, _ => .error .notJson
    | some v, more + 1 => stringFrom (.unit high more (16 * value + v)) rest
    | some v, 0 =>
      match unitMeaning high (16 * value + v) with
      | .error e => .error e
      | .ok (.inl c) => prepend c (stringFrom .plain rest)
      | .ok (.inr h) => stringFrom (.pairBackslash h) rest
  | .pairBackslash h, c :: rest =>
    if c = some '\\' then stringFrom (.pairLetter h) rest else .error .notJson
  | .pairLetter h, c :: rest =>
    if c = some 'u' then
      if hasFourBytes rest then stringFrom (.unit (some h) 3 0) rest else .error .truncated
    else .error .notJson
  | .escape, none :: _ => .error .notJson

/-- Reads a string whose opening quote is behind. -/
def string (s : Symbols) : Except Fault (String × Symbols) :=
  match stringFrom .plain s with
  | .ok (cs, rest) => .ok (String.ofList cs, rest)
  | .error e => .error e

/-- Steps over a string whose opening quote is behind. -/
def skipStringFrom : StringMode → Symbols → Except Fault Symbols
  | _, [] => .error .truncated
  | .escape, some c :: rest =>
    if c = 'u' then
      if hasFourBytes rest then skipStringFrom (.unit none 3 0) rest else .error .truncated
    else if (shortMeaning? c).isSome then skipStringFrom .plain rest
    else .error .notJson
  | .escape, none :: _ => .error .notJson
  | .unit high more value, d :: rest =>
    match hexValue? d, more with
    | none, _ => .error .notJson
    | some _, more + 1 => skipStringFrom (.unit high more value) rest
    | some _, 0 => skipStringFrom .plain rest
  | _, none :: rest => skipStringFrom .plain rest
  | _, some c :: rest =>
    if c = '"' then .ok rest
    else if c = '\\' then skipStringFrom .escape rest
    else if c.toNat < 0x20 then .error .notJson
    else skipStringFrom .plain rest

/-! ## Numbers -/

/-- A symbol that is a decimal digit. -/
def isDigit : Symbol → Bool
  | some c => c.isDigit
  | none => false

/-- The digits at the front, and what follows them. -/
def digits (s : Symbols) : List Char × Symbols :=
  ((s.takeWhile isDigit).filterMap id, s.dropWhile isDigit)

/-- The greatest significand that is kept exactly. -/
def maxSignificand : Nat := 0xFFFFFFFFFFFFFFFF

/-- Takes digits into a significand as long as it stays exact: the significand, and how many digits
are left out. -/
def accumulate (significand : Nat) : List Char → Nat × Nat
  | [] => (significand, 0)
  | d :: ds =>
    let next := 10 * significand + digitValue d
    if next ≤ maxSignificand then accumulate next ds else (significand, ds.length + 1)

/-- The power of ten as a 64-bit number. -/
def powerOfTen (k : Nat) : Binary := Format.double.round false (tenPow k) 1

/-- The greatest power of ten that a 64-bit number holds. -/
def maxPower : Nat := 308

/-- `x * 10 ^ exponent` by products and quotients with powers of ten, each rounded; a fault when it
is out of range. The least powers are reached after at most three quotients. -/
def scale : (fuel : Nat) → Binary → Int → Except Fault Binary
  | 0, x, _ => .ok x
  | fuel + 1, x, exponent =>
    if exponent.natAbs ≤ maxPower then
      if 0 ≤ exponent then
        let y := Format.double.mul x (powerOfTen exponent.natAbs)
        if y.isFinite then .ok y else .error .notJson
      else .ok (Format.double.div x (powerOfTen exponent.natAbs))
    else if x.isZero then .ok x
    else if 0 ≤ exponent then .error .notJson
    else scale fuel (Format.double.div x (powerOfTen maxPower)) (exponent + maxPower)

/-- The number of a significand and an exponent, with its sign. -/
def ofParts (negative : Bool) (significand : Nat) (exponent : Int) : Except Fault Number :=
  match scale 4 (Format.double.ofInt significand) exponent with
  | .ok x => .ok (.double (if negative then x.negate else x))
  | .error e => .error e

/-- The magnitude of the least integer of 64 bits. -/
def minMagnitude : Nat := 0x8000000000000000

/-- An integer without fraction and exponent; one that does not fit in 64 bits with its sign, or a
negative zero, is a binary number. -/
def ofInteger (negative : Bool) (significand : Nat) : Number :=
  if !negative then .int significand
  else if significand = 0 ∨ minMagnitude < significand then
    .double (Format.double.ofInt significand).negate
  else .int (-significand)

/-- The fault where a digit must come. -/
def digitFault : Symbols → Fault
  | [] => .truncated
  | _ :: _ => .notJson

/-- The greatest exponent that is told apart. -/
def maxExponent : Nat := 0x7FFFFFFF

/-- Reads what follows the `e` of a number. -/
def exponentPart (negative : Bool) (significand : Nat) (start : Int) (s : Symbols) :
    Except Fault (Number × Symbols) :=
  let (down, s) := match s with
    | some '+' :: rest => (false, rest)
    | some '-' :: rest => (true, rest)
    | _ => (false, s)
  let (ds, rest) := digits s
  if ds.isEmpty then .error (digitFault rest)
  else
    let e := valueOf ds
    if maxExponent < e then
      if significand ≠ 0 ∧ !down then .error .notJson
      else .ok (.double (.finite negative 0 Format.double.least), rest)
    else
      match ofParts negative significand (if down then start - e else start + e) with
      | .ok n => .ok (n, rest)
      | .error f => .error f

/-- Whether an exponent follows. -/
def startsExponent : Symbols → Bool
  | some c :: _ => c == 'e' || c == 'E'
  | _ => false

/-- Reads what may follow the digits of a fraction. -/
def afterFraction (negative : Bool) (significand : Nat) (exponent : Int) (s : Symbols) :
    Except Fault (Number × Symbols) :=
  if startsExponent s then exponentPart negative significand exponent (s.drop 1)
  else match ofParts negative significand exponent with
    | .ok n => .ok (n, s)
    | .error f => .error f

/-- Reads a number behind its sign. -/
def magnitude (negative : Bool) (s : Symbols) : Except Fault (Number × Symbols) :=
  let (whole, rest) := digits s
  if whole.isEmpty then .error (digitFault rest)
  else if whole.head? = some '0' ∧ 1 < whole.length then .error .notJson
  else
    let (significand, dropped) := accumulate 0 whole
    match rest with
    | some '.' :: tail =>
      let (fraction, rest) := digits tail
      if fraction.isEmpty then .error (digitFault rest)
      else
        let (significand, ignored) := accumulate significand fraction
        afterFraction negative significand
          ((dropped : Int) - (fraction.length - ignored : Nat)) rest
    | _ =>
      if startsExponent rest || dropped ≠ 0 then
        afterFraction negative significand dropped rest
      else .ok (ofInteger negative significand, rest)

/-- Reads a number that starts with a minus or a digit. -/
def number : Symbols → Except Fault (Number × Symbols)
  | some '-' :: rest => magnitude true rest
  | s => magnitude false s

/-- Steps over at least one digit. -/
def skipDigits (s : Symbols) : Except Fault Symbols :=
  let (ds, rest) := digits s
  if ds.isEmpty then .error .notJson else .ok rest

/-- Steps over an exponent, if one follows. -/
def skipExponent (s : Symbols) : Except Fault Symbols :=
  if startsExponent s then
    match s.drop 1 with
    | some '+' :: rest => skipDigits rest
    | some '-' :: rest => skipDigits rest
    | rest => skipDigits rest
  else .ok s

/-- Steps over a number behind its sign. -/
def skipMagnitude (s : Symbols) : Except Fault Symbols :=
  let (whole, rest) := digits s
  if whole.isEmpty then .error .notJson
  else if whole.head? = some '0' ∧ 1 < whole.length then .error .notJson
  else match rest with
    | some '.' :: tail => do skipExponent (← skipDigits tail)
    | _ => skipExponent rest

/-- Steps over a number that starts with a minus or a digit. -/
def skipNumber : Symbols → Except Fault Symbols
  | some '-' :: rest => skipMagnitude rest
  | s => skipMagnitude s

end TypedTables.Json
