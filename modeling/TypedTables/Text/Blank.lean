/-
Blank characters, which are those with the `White_Space` property of Unicode, and trimming: the
blanks at both ends of a text are dropped and nothing else is.
-/
import TypedTables.Text.CharRanges

namespace TypedTables.Text

/-- The `White_Space` property. -/
def blankRanges : CharRanges :=
  [(0x9, 0xD), (0x20, 0x20), (0x85, 0x85), (0xA0, 0xA0), (0x1680, 0x1680), (0x2000, 0x200A),
    (0x2028, 0x2029), (0x202F, 0x202F), (0x205F, 0x205F), (0x3000, 0x3000)]

/-- A blank is a character with the `White_Space` property. -/
def isBlank (c : Char) : Bool := blankRanges.contains c

def trimEnd (cs : List Char) : List Char := (cs.reverse.dropWhile isBlank).reverse

def trimChars (cs : List Char) : List Char := trimEnd (cs.dropWhile isBlank)

def trim (s : String) : String := String.ofList (trimChars s.toList)

/-- A text is blank when nothing is left of it after trimming. -/
def isBlankText (s : String) : Bool := (trim s).isEmpty

/-! ## Small facts -/

theorem trimEnd_nil : trimEnd [] = [] := rfl

end TypedTables.Text
