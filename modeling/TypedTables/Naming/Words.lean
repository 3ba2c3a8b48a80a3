/-
Words of a text and the two spellings made from them. A word is a run of ASCII letters and digits
that is also cut at case boundaries: `IconPath` has the words `Icon`, `Path` and `HTTPServer` the
words `HTTP`, `Server`. Snake case joins the words in lower case with underscores, camel case
capitalises each and joins them with nothing.
-/

namespace TypedTables.Naming

/-- A word ends before the upper-case letter `c` when the character before it is a lower-case
letter or a digit, or is upper-case while a lower-case letter follows `c`. -/
def startsWord (before c : Char) (after : Option Char) : Bool :=
  c.isUpper &&
    (before.isLower || before.isDigit || (before.isUpper && after.any Char.isLower))

/-- The words of `rest` after the word begun by `current`, whose characters are held last first. -/
def wordsFrom : (current rest : List Char) → List (List Char)
  | [], [] => []
  | p :: ps, [] => [(p :: ps).reverse]
  | [], c :: rest => if c.isAlphanum then wordsFrom [c] rest else wordsFrom [] rest
  | p :: ps, c :: rest =>
    if c.isAlphanum then
      if startsWord p c rest.head? then (p :: ps).reverse :: wordsFrom [c] rest
      else wordsFrom (c :: p :: ps) rest
    else (p :: ps).reverse :: wordsFrom [] rest

/-- The words of a text, in order. -/
def words (cs : List Char) : List (List Char) := wordsFrom [] cs

/-- A word in lower case. -/
def lowerWord (w : List Char) : List Char := w.map Char.toLower

/-- A word with its first letter in upper case and the others in lower case. -/
def capitalWord (w : List Char) : List Char :=
  match lowerWord w with
  | [] => []
  | c :: rest => c.toUpper :: rest

/-- The characters of the snake-case spelling. -/
def snakeChars (cs : List Char) : List Char := ['_'].intercalate ((words cs).map lowerWord)

/-- The characters of the camel-case spelling. -/
def camelChars (cs : List Char) : List Char := ((words cs).map capitalWord).flatten

/-- `IconPath` as `icon_path`. -/
def snakeCase (s : String) : String := String.ofList (snakeChars s.toList)

/-- `icon_path` as `IconPath`. -/
def camelCase (s : String) : String := String.ofList (camelChars s.toList)

/-! ## Small facts -/

theorem toList_snakeCase (s : String) : (snakeCase s).toList = snakeChars s.toList := by
  simp [snakeCase]

theorem toList_camelCase (s : String) : (camelCase s).toList = camelChars s.toList := by
  simp [camelCase]

example : words "HTTPServer2Go_now".toList =
    ["HTTP".toList, "Server2".toList, "Go".toList, "now".toList] := by decide

end TypedTables.Naming
