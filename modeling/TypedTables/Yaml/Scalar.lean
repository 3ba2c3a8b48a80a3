/-
YAML scalars: plain ones, ones in single or double quotes, and block scalars. Lines of the first
three are folded: a line end between two lines is a space, and of several line ends the first is
dropped.
-/
import TypedTables.Yaml.Cursor

namespace TypedTables.Yaml

/-- How a scalar is written. -/
inductive Style where
  | plain
  | quoted
  | literal
  | folded
  deriving DecidableEq, Repr

/-- A scalar: its text, how it is written, and its tag if it has one. -/
structure Scalar where
  text : String
  style : Style
  tag : Option String
  deriving DecidableEq, Repr

/-- The scalar of nothing at all. -/
def Scalar.absent : Scalar := ⟨"", .plain, none⟩

/-- A scalar read: the line it ends in, and the place behind it. -/
structure Scanned where
  scalar : Scalar
  last : Nat
  after : Cursor
  deriving DecidableEq, Repr

/-! ## Gaps between words -/

/-- What stands between two words: blanks of one line, or line ends, where the first may be taken
back by a backslash. Characters are kept last first. -/
inductive Gap where
  | blanks (cs : List Char)
  | breaks (first : Option Char) (more : List Char)
  deriving DecidableEq, Repr

namespace Gap

/-- No gap. -/
def none : Gap := .blanks []

def isFolded : Gap → Bool
  | .blanks _ => false
  | .breaks _ _ => true

/-- The gap with a blank behind it; blanks next to line ends do not count. -/
def addBlank (c : Char) : Gap → Gap
  | .blanks cs => .blanks (c :: cs)
  | .breaks first more => .breaks first more

def addBreak (c : Char) : Gap → Gap
  | .blanks _ => .breaks (some c) []
  | .breaks first more => .breaks first (c :: more)

/-- What the gap is read as, last character first. -/
def folded : Gap → List Char
  | .blanks cs => cs
  | .breaks (some '\n') [] => [' ']
  | .breaks (some '\n') more => more
  | .breaks first more => more ++ first.toList

end Gap

/-! ## Plain scalars -/

def isFlowIndicator (c : Char) : Bool := [',', '[', ']', '\x7b', '\x7d'].contains c

/-- The characters that start something other than a plain scalar. -/
def isIndicator (c : Char) : Bool :=
  isFlowIndicator c ||
    ['-', '?', ':', '#', '&', '*', '!', '|', '>', '\'', '"', '%', '@', '`'].contains c

/-- Whether a plain scalar can start before these characters. -/
def startsPlain (braces : Bool) : List Char → Bool
  | [] => false
  | c :: rest =>
    if c == '-' then !endsWord rest
    else if c == '?' || c == ':' then !braces && !endsWord rest
    else !isSpacing c && !isBreak c && !isIndicator c

/-- Reads on in a plain scalar. Its words on further lines stand at column `indent` or behind it;
`text` is what was read, last character first, and `last` the line of its end. -/
def plainFrom (braces : Bool) (indent : Nat) (text : List Char) (gap : Gap) (last : Nat)
    (line column : Nat) : List Char → Option Scanned
  | [] => some ⟨⟨String.ofList text.reverse, .plain, none⟩, last, ⟨[], line, column⟩⟩
  | c :: rest =>
    let here : Cursor := ⟨c :: rest, line, column⟩
    if isBreak c then plainFrom braces indent text (gap.addBreak c) last (line + 1) 0 rest
    else if isSpacing c then
      if gap.isFolded && c == '\t' && column < indent then none
      else plainFrom braces indent text (gap.addBlank c) last line (column + 1) rest
    else if gap != .none && ((!braces && column < indent) || here.atBoundary || c == '#') then
      some ⟨⟨String.ofList text.reverse, .plain, none⟩, last, here⟩
    else if braces && c == ':' && (rest.head?.map fun x => x == '?' || isFlowIndicator x).getD false
    then none
    else if (c == ':' && endsWord rest) || (braces && isFlowIndicator c) then
      some ⟨⟨String.ofList text.reverse, .plain, none⟩, last, here⟩
    else plainFrom braces indent (c :: (gap.folded ++ text)) .none line line (column + 1) rest

/-! ## Quoted scalars -/

/-- What the reader of a quoted scalar stands in: the text, behind a quote that may be one half of a
pair, behind a backslash, or among the hexadecimal digits of an escape. -/
inductive QuoteMode where
  | text
  | quote
  | backslash
  | hex (left value : Nat)
  deriving DecidableEq, Repr

def escapeMeaning? (c : Char) : Option Char :=
  [('0', '\x00'), ('a', '\x07'), ('b', '\x08'), ('t', '\t'), ('\t', '\t'), ('n', '\n'),
    ('v', '\x0b'), ('f', '\x0c'), ('r', '\r'), ('e', '\x1b'), (' ', ' '), ('"', '"'), ('/', '/'),
    ('\\', '\\'), ('N', '\u0085'), ('_', '\u00a0'), ('L', '\u2028'), ('P', '\u2029')].lookup c

/-- How many hexadecimal digits a letter behind a backslash asks for. -/
def escapeDigits? (c : Char) : Option Nat := [('x', 2), ('u', 4), ('U', 8)].lookup c

def hexDigit? (c : Char) : Option Nat :=
  if c.isDigit then some (c.toNat - '0'.toNat)
  else if 'a' ≤ c ∧ c ≤ 'f' then some (c.toNat - 'a'.toNat + 10)
  else if 'A' ≤ c ∧ c ≤ 'F' then some (c.toNat - 'A'.toNat + 10)
  else none

def charOfCode? (n : Nat) : Option Char := if n.isValidChar then some (Char.ofNat n) else none

/-- Reads on in a quoted scalar; `double` tells its quotes. -/
def quotedFrom (double : Bool) (mode : QuoteMode) (text : List Char) (gap : Gap)
    (line column : Nat) : List Char → Option Scanned
  | [] =>
    if mode = .quote then
      some ⟨⟨String.ofList text.reverse, .quoted, none⟩, line, ⟨[], line, column⟩⟩
    else none
  | c :: rest =>
    let here : Cursor := ⟨c :: rest, line, column⟩
    match mode with
    | .quote =>
      if !double && c == '\'' then quotedFrom double .text (c :: text) .none line (column + 1) rest
      else some ⟨⟨String.ofList text.reverse, .quoted, none⟩, line, here⟩
    | .backslash =>
      if isBreak c then quotedFrom double .text text (.breaks none []) (line + 1) 0 rest
      else match escapeMeaning? c, escapeDigits? c with
        | some x, _ => quotedFrom double .text (x :: text) .none line (column + 1) rest
        | _, some n => quotedFrom double (.hex n 0) text .none line (column + 1) rest
        | none, none => none
    | .hex left value =>
      match hexDigit? c with
      | none => none
      | some d =>
        if left ≤ 1 then
          match charOfCode? (16 * value + d) with
          | some x => quotedFrom double .text (x :: text) .none line (column + 1) rest
          | none => none
        else quotedFrom double (.hex (left - 1) (16 * value + d)) text .none line (column + 1) rest
    | .text =>
      if isBreak c then quotedFrom double .text text (gap.addBreak c) (line + 1) 0 rest
      else if isSpacing c then
        quotedFrom double .text text (gap.addBlank c) line (column + 1) rest
      else if gap.isFolded && here.atBoundary then none
      else if c == (if double then '"' else '\'') then
        quotedFrom double .quote (gap.folded ++ text) .none line (column + 1) rest
      else if double && c == '\\' then
        quotedFrom double .backslash (gap.folded ++ text) .none line (column + 1) rest
      else quotedFrom double .text (c :: (gap.folded ++ text)) .none line (column + 1) rest

/-! ## Block scalars -/

/-- What becomes of the line ends behind the last line of a block. -/
inductive Chomp where
  | strip
  | clip
  | keep
  deriving DecidableEq, Repr

/-- The chomping that a mark in the head of a block asks for. -/
def chomp? (c : Char) : Option Chomp :=
  if c = '-' then some .strip else if c = '+' then some .keep else none

/-- The indentation that a digit in the head of a block asks for. -/
def indentDigit? (c : Char) : Option Nat :=
  if '1' ≤ c ∧ c ≤ '9' then some (c.toNat - '0'.toNat) else none

/-- The head of a block: the chomping, the indentation if it is given, and how many characters the
two take. -/
def blockHead (cs : List Char) : Chomp × Option Nat × Nat :=
  match cs with
  | a :: b :: _ =>
    match chomp? a, indentDigit? a, chomp? b, indentDigit? b with
    | some c, _, _, some n => (c, some n, 2)
    | _, some n, some c, _ => (c, some n, 2)
    | some c, _, _, _ => (c, none, 1)
    | _, some n, _, _ => (.clip, some n, 1)
    | _, _, _, _ => (.clip, none, 0)
  | [a] =>
    match chomp? a, indentDigit? a with
    | some c, _ => (c, none, 1)
    | _, some n => (.clip, some n, 1)
    | _, _ => (.clip, none, 0)
  | [] => (.clip, none, 0)

/-- Goes past empty lines and indentation, up to column `limit` if there is one: the line ends, last
first, the greatest column reached, and the place. A tab in the indentation is refused. -/
def indentFrom (limit : Option Nat) (breaks : List Char) (most line column : Nat) :
    List Char → Option (List Char × Nat × Cursor)
  | [] => some (breaks, max most column, ⟨[], line, column⟩)
  | c :: rest =>
    let inside := (limit.map fun n => decide (column < n)).getD true
    if c == ' ' && inside then indentFrom limit breaks most line (column + 1) rest
    else if c == '\t' && inside then none
    else if isBreak c then indentFrom limit (c :: breaks) (max most column) (line + 1) 0 rest
    else some (breaks, max most column, ⟨c :: rest, line, column⟩)

/-- A block as far as it was read: its text, the line end behind it and the empty lines after that,
each last character first, and whether its last line starts with a blank. -/
structure Block where
  text : List Char
  ending : List Char
  empties : List Char
  blank : Bool
  deriving DecidableEq, Repr

/-- The block with a further line. Folding joins two lines that do not start with a blank. -/
def Block.addLine (literal : Bool) (line : List Char) (b : Block) : List Char :=
  let blank := (line.head?.map isSpacing).getD false
  let joint :=
    if !literal && b.ending == ['\n'] && !b.blank && !blank then
      if b.empties.isEmpty then [' '] else []
    else b.ending
  line.reverse ++ (b.empties ++ (joint ++ b.text))

/-- Reads on in a block whose lines start at column `indent`. -/
def blockLines (literal : Bool) (indent : Nat) : (fuel : Nat) → Block → Cursor →
    Option (Block × Cursor)
  | 0, _, _ => none
  | fuel + 1, b, c =>
    if c.column == indent && !c.atEnd then
      let line := c.rest.takeWhile fun x => !isBreak x
      let text := b.addLine literal line
      let blank := (line.head?.map isSpacing).getD false
      match c.rest.dropWhile fun x => !isBreak x with
      | [] => some (⟨text, [], [], blank⟩, ⟨[], c.line, c.column + line.length⟩)
      | e :: rest => do
        let (empties, _, after) ← indentFrom (some indent) [] 0 (c.line + 1) 0 rest
        blockLines literal indent fuel ⟨text, [e], empties, blank⟩ after
    else some (b, c)

/-- The text of a block that was read to its end. -/
def Block.chomped (chomp : Chomp) (b : Block) : List Char :=
  match chomp with
  | .strip => b.text
  | .clip => b.ending ++ b.text
  | .keep => b.empties ++ (b.ending ++ b.text)

/-- Reads a block scalar from behind its mark. Its lines stand behind column `outer`. -/
def block (literal : Bool) (outer : Nat) (c : Cursor) : Option Scanned := do
  let (chomp, given, size) := blockHead c.rest
  let given := given.map fun n => outer + n
  let start ← (c.forward size).nextLine?
  let (empties, most, first) ← indentFrom given [] 0 start.line start.column start.rest
  let indent := given.getD (max most (outer + 1))
  let (b, after) ←
    blockLines literal indent (start.rest.length + 1) ⟨[], [], empties, false⟩ first
  let text := String.ofList (b.chomped chomp).reverse
  return ⟨⟨text, if literal then .literal else .folded, none⟩, c.line, after⟩

end TypedTables.Yaml
