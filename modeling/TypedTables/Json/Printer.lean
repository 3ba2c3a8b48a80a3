/-
Writing JSON values: in one line without blanks, or one item to a line with two spaces of
indentation for each level. Strings escape quotes, backslashes and controls and nothing else;
binary numbers are written by their shortest decimal, an infinity as null.
-/
import TypedTables.Decimal.Layout
import TypedTables.Json.Value

namespace TypedTables.Json

open TypedTables.Decimal

/-! ## Scalars -/

/-- The letter behind the backslash for a character that has one. -/
def shortEscape? (c : Char) : Option Char :=
  if c = '"' then some '"'
  else if c = '\\' then some '\\'
  else if c = '\x08' then some 'b'
  else if c = '\x0c' then some 'f'
  else if c = '\n' then some 'n'
  else if c = '\r' then some 'r'
  else if c = '\t' then some 't'
  else none

/-- The lower-case hexadecimal digit of a value below sixteen. -/
def hexDigit (n : Nat) : Char := Nat.digitChar n

/-- The written form of one character. -/
def escapeChar (c : Char) : List Char :=
  match shortEscape? c with
  | some e => ['\\', e]
  | none =>
    if c.toNat < 0x20 then
      ['\\', 'u', '0', '0', hexDigit (c.toNat / 16), hexDigit (c.toNat % 16)]
    else [c]

/-- A string between quotes. -/
def stringChars (s : String) : List Char := '"' :: (s.toList.flatMap escapeChar ++ ['"'])

/-- An integer in decimal. -/
def intChars (n : Int) : List Char :=
  (if n < 0 then ['-'] else []) ++ Nat.toDigits 10 n.natAbs

/-- A number. -/
def Number.chars : Number → List Char
  | .int n => intChars n
  | .single x => (Layout.single.ofBinary? Format.single x).getD "null".toList
  | .double x => (Layout.double.ofBinary? Format.double x).getD "null".toList

/-- A truth value. -/
def boolChars (b : Bool) : List Char := if b then "true".toList else "false".toList

/-! ## Compact form -/

mutual

/-- A value in one line. -/
def Value.chars : Value → List Char
  | .null => "null".toList
  | .bool b => boolChars b
  | .number n => n.chars
  | .string s => stringChars s
  | .array items => '[' :: (itemChars true items ++ [']'])
  | .object members => '\x7b' :: (memberChars true members ++ ['\x7d'])

/-- Items with commas between them; `first` tells whether the list starts here. -/
def itemChars (first : Bool) : List Value → List Char
  | [] => []
  | v :: rest => (if first then [] else [',']) ++ (v.chars ++ itemChars false rest)

/-- Members with commas between them; `first` tells whether the list starts here. -/
def memberChars (first : Bool) : List (String × Value) → List Char
  | [] => []
  | (name, v) :: rest =>
    (if first then [] else [',']) ++
      (stringChars name ++ ':' :: (v.chars ++ memberChars false rest))

end

/-- A value as text in one line. -/
def Value.compact (v : Value) : String := String.ofList v.chars

/-! ## Indented form -/

/-- A new line at a level of indentation. -/
def newLine (level : Nat) : List Char := '\n' :: List.replicate (2 * level) ' '

mutual

/-- A value with one item or member to a line; `level` is the indentation it stands at. -/
def Value.prettyChars (level : Nat) : Value → List Char
  | .null => "null".toList
  | .bool b => boolChars b
  | .number n => n.chars
  | .string s => stringChars s
  | .array [] => ['[', ']']
  | .array (v :: items) =>
    '[' :: (prettyItems (level + 1) true (v :: items) ++ (newLine level ++ [']']))
  | .object [] => ['\x7b', '\x7d']
  | .object (m :: members) =>
    '\x7b' :: (prettyMembers (level + 1) true (m :: members) ++ (newLine level ++ ['\x7d']))

/-- Items, each on a line of its own. -/
def prettyItems (level : Nat) (first : Bool) : List Value → List Char
  | [] => []
  | v :: rest =>
    (if first then [] else [',']) ++ newLine level ++
      (v.prettyChars level ++ prettyItems level false rest)

/-- Members, each on a line of its own. -/
def prettyMembers (level : Nat) (first : Bool) : List (String × Value) → List Char
  | [] => []
  | (name, v) :: rest =>
    (if first then [] else [',']) ++ newLine level ++
      (stringChars name ++ ':' :: ' ' :: (v.prettyChars level ++ prettyMembers level false rest))

end

end TypedTables.Json
