/-
Tags of YAML nodes. A tag in angle brackets is written in full; every other one starts with a
handle, for which a start was agreed on. Characters may be written as octets in hexadecimal; those
beyond ASCII stay octets, each of them read as the character of its number.
-/
import TypedTables.Yaml.Scalar

namespace TypedTables.Yaml

/-! ## Names -/

/-- The characters of names: of anchors, of handles and of directives. -/
def isNameChar (c : Char) : Bool := c.isAlphanum || c == '_' || c == '-'

/-- The characters of a tag. Those that separate items inside of braces may stand in angle brackets
only. -/
def isTagChar (full : Bool) (c : Char) : Bool :=
  isNameChar c || (full && (c == ',' || c == '[' || c == ']')) ||
    [';', '/', '?', ':', '@', '&', '=', '+', '$', '.', '!', '~', '*', '\'', '(', ')'].contains c

/-! ## Text of tags -/

/-- How many octets follow the first octet of a character. -/
def followers? (octet : Nat) : Option Nat :=
  if octet < 0x80 then some 0
  else if octet < 0xC0 then none
  else if octet < 0xE0 then some 1
  else if octet < 0xF0 then some 2
  else if octet < 0xF8 then some 3
  else none

/-- How many octets are still to come behind an octet where `left` ones were. -/
def leftBehind? (left octet : Nat) : Option Nat :=
  if left = 0 then followers? octet
  else if 0x80 ≤ octet ∧ octet < 0xC0 then some (left - 1)
  else none

/-- Reads on in the text of a tag; `left` octets of a character are still to come, and `text` is
what was read, last character first. -/
def tagTextFrom (full : Bool) (left : Nat) (text : List Char) (line column : Nat) :
    List Char → Option (List Char × Cursor)
  | [] => if left = 0 then some (text, ⟨[], line, column⟩) else none
  | c :: rest =>
    if c == '%' then
      match rest with
      | a :: b :: rest =>
        match hexDigit? a, hexDigit? b with
        | some x, some y =>
          match leftBehind? left (16 * x + y) with
          | some left =>
            tagTextFrom full left (Char.ofNat (16 * x + y) :: text) line (column + 3) rest
          | none => none
        | _, _ => none
      | _ => none
    else if left ≠ 0 then none
    else if isTagChar full c then tagTextFrom full 0 (c :: text) line (column + 1) rest
    else some (text, ⟨c :: rest, line, column⟩)

/-- The text of a tag from here on and the place behind it. A zero octet ends the text, not what is
read. -/
def tagText? (full : Bool) (c : Cursor) : Option (String × Cursor) := do
  let (text, after) ← tagTextFrom full 0 [] c.line c.column c.rest
  return (String.ofList (text.reverse.takeWhile (· != '\x00')), after)

/-! ## Tags -/

/-- A tag as it is written: its handle, which is empty if it is written in full, and the rest. -/
structure Tag where
  handle : String
  rest : String
  deriving DecidableEq, Repr

/-- The handle at an exclamation mark, and the place behind it: the mark alone, or a name between
two of them. A name that no mark ends belongs to it here, too. -/
def handle (c : Cursor) : String × Cursor :=
  let name := (c.rest.drop 1).takeWhile isNameChar
  let after := c.forward (name.length + 1)
  if after.rest.head? == some '!' then (String.ofList ('!' :: name ++ ['!']), after.forward 1)
  else (String.ofList ('!' :: name), after)

/-- Whether a text is a handle that can only be one. -/
def isNamedHandle (s : String) : Bool := 2 ≤ s.length && s.toList.getLast? == some '!'

/-- Reads a tag that starts here. A single mark is a tag in full. -/
def tag? (braces : Bool) (c : Cursor) : Option (Tag × Cursor) := do
  let (t, after) ←
    if (c.rest.drop 1).head? == some '<' then do
      let start := c.forward 2
      let (text, after) ← tagText? true start
      if after.column == start.column || after.rest.head? != some '>' then none
      else some (⟨"", text⟩, after.forward 1)
    else
      let (name, start) := handle c
      if isNamedHandle name then do
        let (text, after) ← tagText? false start
        if after.column == start.column then none else some (⟨name, text⟩, after)
      else do
        let (text, after) ← tagText? false (c.forward 1)
        some (if text.isEmpty then ⟨"", "!"⟩ else ⟨"!", text⟩, after)
  if endsWord after.rest || (braces && after.rest.head? == some ',') then return (t, after)
  else none

/-! ## Handles -/

/-- The starts that handles stand for, the last agreed on first. -/
abbrev Handles := List (String × String)

/-- The handles of every document. -/
def standardHandles : Handles := [("!", "!"), ("!!", "tag:yaml.org,2002:")]

/-- A tag in full. Its handle must be agreed on. -/
def Tag.full? (handles : Handles) (t : Tag) : Option String :=
  if t.handle.isEmpty then some t.rest
  else ((handles ++ standardHandles).lookup t.handle).map fun start => start ++ t.rest

def boolTag : String := "tag:yaml.org,2002:bool"

end TypedTables.Yaml
