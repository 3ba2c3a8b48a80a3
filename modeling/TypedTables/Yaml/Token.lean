/-
Tokens of a YAML text that holds mappings of scalars. What starts a key shows only at the colon
behind it, in the same line and not far away; until then its tokens are held back, and the colon
puts the token of a key, and of a mapping if this is its first key, before them. A mapping in lines
starts at the column of its first key and ends before the first token that stands left of it. Lists
and mappings inside of others make no tokens: their texts are refused. Main definition: `tokens?`.
-/
import TypedTables.Yaml.Tag

namespace TypedTables.Yaml

/-- A token. -/
inductive Token where
  | version (major minor : Nat)
  | handle (name start : String)
  | documentStart
  | documentEnd
  | mappingStart (braces : Bool)
  | mappingEnd
  | key
  | value
  | separator
  | alias (name : String)
  | anchor (name : String)
  | tag (t : Tag)
  | scalar (s : Scalar)
  deriving DecidableEq, Repr

/-! ## Tokens of one line -/

/-- The name behind the mark of an anchor or alias, and the place behind it. -/
def anchorName? (c : Cursor) : Option (String × Cursor) :=
  let name := (c.rest.drop 1).takeWhile isNameChar
  let after := c.forward (name.length + 1)
  let ends := match after.rest with
    | [] => true
    | x :: _ => isSpacing x || isBreak x || ['?', ':', ',', ']', '\x7d', '%', '@', '`'].contains x
  if name.isEmpty || !ends then none else some (String.ofList name, after)

/-- The place behind blanks. -/
def Cursor.pastBlanks (c : Cursor) : Cursor := c.forward (c.rest.takeWhile isSpacing).length

/-- No number of a version has more digits. -/
def maxVersionDigits : Nat := 9

/-- A number of a version, and the place behind it. -/
def versionNumber? (c : Cursor) : Option (Nat × Cursor) :=
  let digits := c.rest.takeWhile Char.isDigit
  if digits.isEmpty || maxVersionDigits < digits.length then none
  else some (digits.foldl (fun n d => 10 * n + (d.toNat - '0'.toNat)) 0, c.forward digits.length)

def version? (c : Cursor) : Option (Token × Cursor) := do
  let (major, dot) ← versionNumber? c
  if dot.rest.head? != some '.' then none
  else
    let (minor, after) ← versionNumber? (dot.forward 1)
    return (.version major minor, after)

/-- Reads the handle of a directive and what it stands for. -/
def handleStart? (c : Cursor) : Option (Token × Cursor) := do
  let (name, after) := Yaml.handle c
  let start := after.pastBlanks
  if c.rest.head? != some '!' || !(name == "!" || isNamedHandle name) ||
    start.column == after.column then none
  else
    let (text, after) ← tagText? true start
    if after.column == start.column || !endsWord after.rest then none
    else return (.handle name text, after)

/-- Reads a directive and goes past its line. -/
def directive? (c : Cursor) : Option (Token × Cursor) := do
  let name := (c.rest.drop 1).takeWhile isNameChar
  let after := c.forward (name.length + 1)
  if !endsWord after.rest then none
  else
    let (t, after) ←
      if name == "YAML".toList then version? after.pastBlanks
      else if name == "TAG".toList then handleStart? after.pastBlanks
      else none
    return (t, ← after.nextLine?)

/-! ## Reading -/

/-- Where a key may have started. A required one stands where a mapping's keys stand, so that it is
an error if no colon follows. -/
structure PossibleKey where
  line : Nat
  column : Nat
  required : Bool
  deriving DecidableEq, Repr

/-- A text read in part. Tokens are kept last first: those of `held` may follow the token of a key
that is not yet written. `indent` is the column of the mapping in lines that is open. -/
structure Reader where
  cursor : Cursor
  done : List Token
  held : List Token
  braces : Bool
  indent : Option Nat
  keyAllowed : Bool
  key : Option PossibleKey
  deriving DecidableEq, Repr

/-- A colon stands no more characters behind the start of its key. -/
def maxKeySize : Nat := 1024

namespace Reader

/-- The start of a text. -/
def start (cs : List Char) : Reader := ⟨⟨cs, 0, 0⟩, [], [], false, none, true, none⟩

/-- Adds a token and goes on behind it. -/
def emit (r : Reader) (t : Token) (after : Cursor) : Reader :=
  { r with held := t :: r.held, cursor := after }

/-- Gives up the possible key. A required one may not be given up. -/
def dropKey? (r : Reader) : Option Reader :=
  if (r.key.map PossibleKey.required).getD false then none else some { r with key := none }

/-- Takes what starts here for a key, if one may start here. -/
def saveKey? (r : Reader) : Option Reader :=
  if !r.keyAllowed then some r
  else do
    let r ← r.dropKey?
    let required := !r.braces && r.indent == some r.cursor.column
    return { r with
      done := r.held ++ r.done
      held := []
      keyAllowed := false
      key := some ⟨r.cursor.line, r.cursor.column, required⟩ }

/-- Gives up the possible key if a colon here would be too far from it. -/
def dropFarKey? (r : Reader) : Option Reader :=
  match r.key with
  | some k =>
    if k.line < r.cursor.line || k.column + maxKeySize < r.cursor.column then r.dropKey? else some r
  | none => some r

/-- Ends the mapping in lines. -/
def close (r : Reader) : Reader :=
  if r.indent.isSome then { r.emit .mappingEnd r.cursor with indent := none } else r

/-- Ends the mapping in lines if a token here stands left of it. -/
def closeBefore (r : Reader) : Reader :=
  if !r.braces && (r.indent.map fun i => decide (r.cursor.column < i)).getD false then r.close
  else r

/-- The token that a key at a column starts a mapping with, if it does, and the column of the
mapping. A mapping inside of another is refused. -/
def startAt? (r : Reader) (column : Nat) : Option (List Token × Option Nat) :=
  if r.braces then some ([], r.indent)
  else match r.indent with
    | none => some ([.mappingStart false], some column)
    | some i => if i < column then none else some ([], some i)

/-- Goes to the next token. -/
def next? (r : Reader) : Option Reader := do
  let c := r.cursor.token r.braces (r.braces || !r.keyAllowed)
  let allowed := r.keyAllowed || (!r.braces && r.cursor.line < c.line)
  let r ← { r with cursor := c, keyAllowed := allowed }.dropFarKey?
  return r.closeBefore

/-- Reads a token that stands alone between documents and ends the mapping in lines. -/
def outer? (r : Reader) (t : Token) (after : Cursor) : Option Reader :=
  if r.braces then none
  else do
    let r ← r.close.dropKey?
    return { r.emit t after with keyAllowed := false }

def openBrace? (r : Reader) : Option Reader :=
  if r.braces || r.indent.isSome then none
  else some { r.emit (.mappingStart true) (r.cursor.forward 1) with
    braces := true
    keyAllowed := true
    key := none }

def closeBrace? (r : Reader) : Option Reader :=
  if !r.braces then none
  else some { r.emit .mappingEnd (r.cursor.forward 1) with
    braces := false
    keyAllowed := false
    key := none }

def comma? (r : Reader) : Option Reader :=
  if !r.braces then none
  else some { r.emit .separator (r.cursor.forward 1) with keyAllowed := true, key := none }

/-- Reads a question mark, which starts a key of any size. -/
def question? (r : Reader) : Option Reader :=
  if !r.braces && !r.keyAllowed then none
  else do
    let (starts, indent) ← r.startAt? r.cursor.column
    let r ← r.dropKey?
    return { r with
      cursor := r.cursor.forward 1
      held := .key :: (starts ++ r.held)
      indent := indent
      keyAllowed := !r.braces }

/-- Reads a colon. What was held back is a key if it can be one. -/
def colon? (r : Reader) : Option Reader :=
  match r.key with
  | some k => do
    let (starts, indent) ← r.startAt? k.column
    return { r with
      cursor := r.cursor.forward 1
      done := r.held ++ (.key :: (starts ++ r.done))
      held := [.value]
      indent := indent
      keyAllowed := false
      key := none }
  | none =>
    if !r.braces && !r.keyAllowed then none
    else do
      let (starts, indent) ← r.startAt? r.cursor.column
      return { r with
        cursor := r.cursor.forward 1
        held := .value :: (starts ++ r.held)
        indent := indent
        keyAllowed := !r.braces }

def name? (r : Reader) (t : String → Token) : Option Reader := do
  let r ← r.saveKey?
  let (name, after) ← anchorName? r.cursor
  return r.emit (t name) after

/-- Reads a block scalar, which is no key of one line. Keys may follow it. -/
def block? (r : Reader) (literal : Bool) : Option Reader := do
  let r ← r.dropKey?
  let s ← block literal (r.indent.getD 0) (r.cursor.forward 1)
  return { r.emit (.scalar s.scalar) s.after with keyAllowed := true }

def quoted? (r : Reader) (double : Bool) : Option Reader := do
  let r ← r.saveKey?
  let c := r.cursor.forward 1
  let s ← quotedFrom double .text [] .none c.line c.column c.rest
  return r.emit (.scalar s.scalar) s.after

/-- Reads a plain scalar. Keys may follow it in a further line. -/
def plain? (r : Reader) : Option Reader := do
  let r ← r.saveKey?
  let c := r.cursor
  let indent := (r.indent.map fun i => i + 1).getD 0
  let s ← plainFrom r.braces indent [] .none c.line c.line c.column c.rest
  let allowed := r.keyAllowed || decide (s.last < s.after.line)
  return { r.emit (.scalar s.scalar) s.after with keyAllowed := allowed }

/-- Reads the token that starts here. -/
def token? (r : Reader) : Option Reader :=
  let c := r.cursor
  if c.column == 0 && c.rest.head? == some '%' then do
    let (t, after) ← directive? c
    r.outer? t after
  else if c.atMarker '-' then r.outer? .documentStart (c.forward 3)
  else if c.atMarker '.' then r.outer? .documentEnd (c.forward 3)
  else match c.rest with
    | [] => none
    | x :: rest =>
      let word := r.braces || endsWord rest
      if x == '\x7b' then r.openBrace?
      else if x == '\x7d' then r.closeBrace?
      else if x == ',' then r.comma?
      else if x == '?' && word then r.question?
      else if x == ':' && word then r.colon?
      else if x == '*' then r.name? .alias
      else if x == '&' then r.name? .anchor
      else if x == '!' then do
        let r ← r.saveKey?
        let (t, after) ← tag? r.braces c
        return r.emit (.tag t) after
      else if x == '|' && !r.braces then r.block? true
      else if x == '>' && !r.braces then r.block? false
      else if x == '\'' then r.quoted? false
      else if x == '"' then r.quoted? true
      else if startsPlain r.braces c.rest then r.plain?
      else none

def tokens? (r : Reader) : Option (List Token) :=
  if r.braces then none
  else do
    let r ← r.close.dropKey?
    return (r.held ++ r.done).reverse

/-- Reads on up to the end of the text; `fuel` bounds the number of tokens. -/
def run? : (fuel : Nat) → Reader → Option (List Token)
  | 0, _ => none
  | fuel + 1, r => do
    let r ← r.next?
    if r.cursor.atEnd then r.tokens? else run? fuel (← r.token?)

end Reader

def tokens? (cs : List Char) : Option (List Token) := (Reader.start cs).run? (cs.length + 1)

end TypedTables.Yaml
