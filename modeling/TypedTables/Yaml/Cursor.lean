/-
Places in a YAML text. A text is read with its line ends made into line feeds; the line and column
separators of Unicode end lines as well. Main definition: `Cursor.token`, which goes past blanks,
comments and line ends to where the next token starts.
-/

namespace TypedTables.Yaml

/-! ## Characters -/

def isBreak (c : Char) : Bool := c == '\n' || c == '\u2028' || c == '\u2029'

def isSpacing (c : Char) : Bool := c == ' ' || c == '\t'

/-- The characters that a text may hold. -/
def isAllowed (c : Char) : Bool :=
  let n := c.toNat
  n == 0x09 || n == 0x0A || n == 0x0D || (0x20 ≤ n && n ≤ 0x7E) || n == 0x85 ||
    (0xA0 ≤ n && n ≤ 0xFFFD) || 0x10000 ≤ n

/-- Makes a carriage return, its pair with a line feed, and a next-line control a line feed. -/
def unifyBreaks : List Char → List Char
  | [] => []
  | '\r' :: '\n' :: rest => '\n' :: unifyBreaks rest
  | c :: rest => (if c == '\r' || c == '\u0085' then '\n' else c) :: unifyBreaks rest

/-- Whether a word ends before these characters. -/
def endsWord : List Char → Bool
  | [] => true
  | c :: _ => isSpacing c || isBreak c

/-! ## Cursors -/

/-- A place in a text: what follows, and its line and column. -/
structure Cursor where
  rest : List Char
  line : Nat
  column : Nat
  deriving DecidableEq, Repr

namespace Cursor

/-- The place `n` characters of the same line further on. -/
def forward (c : Cursor) (n : Nat) : Cursor := ⟨c.rest.drop n, c.line, c.column + n⟩

def atEnd (c : Cursor) : Bool := c.rest.isEmpty

/-- Whether three dashes, or three dots, start the line and are a word. -/
def atMarker (mark : Char) (c : Cursor) : Bool :=
  c.column == 0 && c.rest.take 3 == [mark, mark, mark] && endsWord (c.rest.drop 3)

/-- Whether the line is a mark between documents. -/
def atBoundary (c : Cursor) : Bool := c.atMarker '-' || c.atMarker '.'

/-- Goes past blanks, comments and line ends. `tabs` tells whether tabs are blanks here; outside of
braces they are not before the first token of a line. A byte order mark may start every line. -/
def tokenFrom (braces : Bool) : (tabs comment : Bool) → (line column : Nat) → List Char → Cursor
  | _, _, line, column, [] => ⟨[], line, column⟩
  | tabs, comment, line, column, c :: rest =>
    if isBreak c then tokenFrom braces braces false (line + 1) 0 rest
    else if comment || c == ' ' || (tabs && c == '\t') || (column == 0 && c == '\uFEFF') then
      tokenFrom braces tabs comment line (column + 1) rest
    else if c == '#' then tokenFrom braces tabs true line (column + 1) rest
    else ⟨c :: rest, line, column⟩

/-- Where the next token starts, inside or outside of braces. -/
def token (c : Cursor) (braces tabs : Bool) : Cursor :=
  tokenFrom braces tabs false c.line c.column c.rest

/-- The start of the next line, if there is nothing up to it but blanks and a comment. -/
def nextLine? (c : Cursor) : Option Cursor :=
  let bare := c.rest.dropWhile isSpacing
  match if bare.head? == some '#' then bare.dropWhile fun x => !isBreak x else bare with
  | [] => some ⟨[], c.line + 1, 0⟩
  | e :: rest => if isBreak e then some ⟨rest, c.line + 1, 0⟩ else none

end Cursor

end TypedTables.Yaml
