/-
Quoted text: a text between double quotes that reads back to the same characters. Quotes,
backslashes and four controls get a backslash, and every other character that cannot be seen on its
own is written by its code point in hexadecimal.
-/
import TypedTables.Text.Extending
import TypedTables.Text.Unprintable

namespace TypedTables.Text.Quoted

/-! ## Writing -/

/-- A character that stands for itself can be seen without what comes before it. -/
def isPlain (c : Char) : Bool :=
  if c.toNat < 0x7F then 0x20 ≤ c.toNat else !isUnprintable c && !isExtending c

/-- The letter behind the backslash for a character that has one. -/
def shortEscape? (c : Char) : Option Char :=
  if c = '"' then some '"'
  else if c = '\\' then some '\\'
  else if c = '\t' then some 't'
  else if c = '\r' then some 'r'
  else if c = '\n' then some 'n'
  else if c = '\x00' then some '0'
  else none

def codeEscape (c : Char) : List Char :=
  '\\' :: 'u' :: '\x7b' :: (Nat.toDigits 16 c.toNat ++ ['\x7d'])

def encodeChar (c : Char) : List Char :=
  match shortEscape? c with
  | some e => ['\\', e]
  | none => if isPlain c then [c] else codeEscape c

def encode (cs : List Char) : List Char := cs.flatMap encodeChar

def literalChars (cs : List Char) : List Char := '"' :: (encode cs ++ ['"'])

end Quoted

def quoted (s : String) : String := String.ofList (Quoted.literalChars s.toList)

theorem toList_quoted (s : String) : (quoted s).toList = Quoted.literalChars s.toList := by
  simp [quoted]

namespace Quoted

/-! ## Reading -/

/-- What the reader stands in: plain text, behind a backslash, behind `\u`, or among the digits of
a code point with their number and their value so far. -/
inductive Mode where
  | plain
  | escape
  | code
  | digits (count value : Nat)

/-- The character that a letter behind a backslash means. -/
def shortMeaning? (e : Char) : Option Char :=
  if e = '"' then some '"'
  else if e = '\\' then some '\\'
  else if e = 't' then some '\t'
  else if e = 'r' then some '\r'
  else if e = 'n' then some '\n'
  else if e = '0' then some '\x00'
  else none

def hexValue? (c : Char) : Option Nat :=
  if '0' ≤ c ∧ c ≤ '9' then some (c.toNat - 48)
  else if 'a' ≤ c ∧ c ≤ 'f' then some (c.toNat - 87)
  else if 'A' ≤ c ∧ c ≤ 'F' then some (c.toNat - 55)
  else none

def charOfCode? (n : Nat) : Option Char :=
  if h : n.isValidChar then some (Char.ofNatAux n h) else none

/-- The text before the closing quote and what follows the quote. A code point has one to six digits. -/
def readFrom : Mode → List Char → Option (List Char × List Char)
  | .plain, c :: rest =>
    if c = '"' then some ([], rest)
    else if c = '\\' then readFrom .escape rest
    else (readFrom .plain rest).map fun (text, tail) => (c :: text, tail)
  | .escape, c :: rest =>
    if c = 'u' then readFrom .code rest
    else (shortMeaning? c).bind fun d =>
      (readFrom .plain rest).map fun (text, tail) => (d :: text, tail)
  | .code, c :: rest => if c = '\x7b' then readFrom (.digits 0 0) rest else none
  | .digits k n, c :: rest =>
    if c = '\x7d' then
      if k = 0 then none
      else (charOfCode? n).bind fun d =>
        (readFrom .plain rest).map fun (text, tail) => (d :: text, tail)
    else if k = 6 then none
    else (hexValue? c).bind fun v => readFrom (.digits (k + 1) (16 * n + v)) rest
  | _, [] => none

/-- Reads a literal that stands at the front: its text, and what follows the literal. -/
def read? : List Char → Option (List Char × List Char)
  | '"' :: rest => readFrom .plain rest
  | _ => none

example : read? (literalChars "a\"b\\\n\u0301".toList ++ ['!']) =
    some ("a\"b\\\n\u0301".toList, ['!']) := by decide +kernel

end TypedTables.Text.Quoted
