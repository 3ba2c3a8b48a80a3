/-
Both ways of writing a value as one: in one line, or with one item to a line at some indentation.
They differ only in the blanks before an item, before a closing bracket and behind a colon, and the
reader steps over blanks at each of these places.
-/
import TypedTables.Json.Printer
import TypedTables.Json.Reader
import TypedTables.Proofs.Json.Number

namespace TypedTables.Json

open TypedTables.Text.Utf8

/-- How a value is written: in one line, or with one item to a line at a level of indentation. -/
inductive Style where
  | compact
  | indented (level : Nat)

namespace Style

/-- The style of the items of a list. -/
def inside : Style → Style
  | .compact => .compact
  | .indented level => .indented (level + 1)

/-- The blanks before an item and before a closing bracket. -/
def gap : Style → List Char
  | .compact => []
  | .indented level => newLine level

/-- The blanks behind the colon of a member. -/
def colonGap : Style → List Char
  | .compact => []
  | .indented _ => [' ']

/-- What is written before an item or a member of a list of them. -/
def lead (style : Style) (first : Bool) : List Char := (if first then [] else [',']) ++ style.gap

theorem isSpace_gap (style : Style) : ∀ c ∈ style.gap, isSpace (some c) = true := by
  intro c hc
  cases style with
  | compact => cases hc
  | indented level =>
    rcases List.mem_cons.1 hc with rfl | hc
    · rfl
    · rw [List.eq_of_mem_replicate hc]; rfl

theorem isSpace_colonGap (style : Style) : ∀ c ∈ style.colonGap, isSpace (some c) = true := by
  intro c hc
  cases style with
  | compact => cases hc
  | indented level => rw [List.mem_singleton.1 hc]; rfl

end Style

/-! ## Texts -/

/-- The text of a value. -/
def Value.written (style : Style) (v : Value) : List Char :=
  match style with
  | .compact => v.chars
  | .indented level => v.prettyChars level

/-- The text of items in a list of the style around them. -/
def writtenItems (style : Style) (first : Bool) (items : List Value) : List Char :=
  match style with
  | .compact => itemChars first items
  | .indented level => prettyItems level first items

/-- The text of members in an object of the style around them. -/
def writtenMembers (style : Style) (first : Bool) (members : Members) : List Char :=
  match style with
  | .compact => memberChars first members
  | .indented level => prettyMembers level first members

variable (style : Style)

theorem written_string (s : String) : (Value.string s).written style = stringChars s := by
  cases style <;> rfl

theorem written_bool (b : Bool) : (Value.bool b).written style = boolChars b := by
  cases style <;> rfl

theorem written_int (n : Int) : (Value.number (.int n)).written style = intChars n := by
  cases style <;> rfl

/-- An empty list is written without blanks in either style. -/
theorem exists_written_array (items : List Value) : ∃ above : Style,
    (Value.array items).written style =
      '[' :: (writtenItems style.inside true items ++ (above.gap ++ [']'])) := by
  cases items with
  | nil => exact ⟨.compact, by cases style <;> rfl⟩
  | cons v items => exact ⟨style, by cases style <;> rfl⟩

/-- An empty object is written without blanks in either style. -/
theorem exists_written_object (members : Members) : ∃ above : Style,
    (Value.object members).written style =
      '\x7b' :: (writtenMembers style.inside true members ++ (above.gap ++ ['\x7d'])) := by
  cases members with
  | nil => exact ⟨.compact, by cases style <;> rfl⟩
  | cons m members => exact ⟨style, by cases style <;> rfl⟩

theorem writtenItems_nil (first : Bool) : writtenItems style first [] = [] := by
  cases style <;> rfl

theorem writtenItems_cons (first : Bool) (v : Value) (items : List Value) :
    writtenItems style first (v :: items) =
      style.lead first ++ (v.written style ++ writtenItems style false items) := by
  cases style <;> cases first <;> rfl

theorem writtenMembers_nil (first : Bool) : writtenMembers style first [] = [] := by
  cases style <;> rfl

theorem writtenMembers_cons (first : Bool) (name : String) (v : Value) (members : Members) :
    writtenMembers style first ((name, v) :: members) = style.lead first ++
      (stringChars name ++ ':' :: (style.colonGap ++
        (v.written style ++ writtenMembers style false members))) := by
  cases style <;> cases first <;> rfl

/-! ## Steps between values -/

theorem next_cons {c : Symbol} (h : isSpace c = false) (rest : Symbols) :
    next (c :: rest) = .ok (c, rest) := by
  simp [next, skipSpace, h]

theorem next_spaces {cs : List Char} (h : ∀ c ∈ cs, isSpace (some c) = true) (s : Symbols) :
    next (cs.map some ++ s) = next s := by
  have hall : ∀ c ∈ cs.map some, isSpace c = true := by
    intro c hc
    obtain ⟨d, hd, rfl⟩ := List.mem_map.1 hc
    exact h d hd
  rw [next, skipSpace, List.dropWhile_append_of_pos hall, ← skipSpace, ← next]

theorem next_gap (s : Symbols) : next (style.gap.map some ++ s) = next s :=
  next_spaces style.isSpace_gap s

theorem read_colonGap (fuel depth : Nat) (shape : Shape) (s : Symbols) :
    read fuel depth shape (style.colonGap.map some ++ s) = read fuel depth shape s := by
  cases fuel with
  | zero => rw [read, read]
  | succ fuel => rw [read, read, next_spaces style.isSpace_colonGap]

theorem nextItem_lead (first : Bool) {c : Symbol} (hs : isSpace c = false) (hc : c ≠ some ']')
    (rest : Symbols) :
    nextItem first ((style.lead first).map some ++ c :: rest) = .ok (true, c :: rest) := by
  have hnext : next (style.gap.map some ++ c :: rest) = .ok (c, rest) := by
    rw [next_gap, next_cons hs]
  cases first with
  | true => simp [nextItem, Style.lead, hnext, hc]
  | false =>
    rw [nextItem, Style.lead, if_neg (by decide), List.map_append, List.append_assoc, List.map_cons,
      List.map_nil, List.singleton_append, next_cons rfl]
    simp [hnext, hc]

theorem nextItem_close (first : Bool) (rest : Symbols) :
    nextItem first (style.gap.map some ++ some ']' :: rest) = .ok (false, rest) := by
  rw [nextItem, next_gap, next_cons rfl]; rfl

theorem nextName_lead (first : Bool) (rest : Symbols) :
    nextName first ((style.lead first).map some ++ some '"' :: rest) = .ok (true, rest) := by
  have hnext : next (style.gap.map some ++ some '"' :: rest) = .ok (some '"', rest) := by
    rw [next_gap, next_cons rfl]
  cases first with
  | true => simp [nextName, Style.lead, hnext]
  | false =>
    rw [nextName, Style.lead, if_neg (by decide), List.map_append, List.append_assoc, List.map_cons,
      List.map_nil, List.singleton_append, next_cons rfl]
    simp [hnext]

theorem nextName_close (first : Bool) (rest : Symbols) :
    nextName first (style.gap.map some ++ some '\x7d' :: rest) = .ok (false, rest) := by
  rw [nextName, next_gap, next_cons rfl]; rfl

theorem colon_cons (rest : Symbols) : colon (some ':' :: rest) = .ok rest := by
  rw [colon, next_cons rfl]; rfl

/-! ## What stands behind a value -/

theorem endsNumber_cons {c : Char} (h : c ∈ [',', '\n', ']', '\x7d']) (rest : Symbols) :
    EndsNumber (some c :: rest) := by
  simp only [List.mem_cons, List.not_mem_nil, or_false] at h
  rcases h with rfl | rfl | rfl | rfl <;> exact ⟨rfl, by decide, by decide, by decide⟩

/-- A closing bracket with the blanks before it. -/
theorem endsNumber_close {c : Char} (h : c ∈ [']', '\x7d']) (rest : Symbols) :
    EndsNumber (style.gap.map some ++ some c :: rest) := by
  cases style with
  | compact => exact endsNumber_cons (by simpa using .inr (.inr (by simpa using h))) rest
  | indented level => exact endsNumber_cons (by decide) _

theorem endsNumber_items (above : Style) (items : List Value) (rest : Symbols) :
    EndsNumber ((writtenItems style false items).map some ++
      (above.gap.map some ++ some ']' :: rest)) := by
  cases items with
  | nil =>
    rw [writtenItems_nil, List.map_nil, List.nil_append]
    exact endsNumber_close above (by decide) rest
  | cons v items => rw [writtenItems_cons]; exact endsNumber_cons (by decide) _

theorem endsNumber_members (above : Style) (members : Members) (rest : Symbols) :
    EndsNumber ((writtenMembers style false members).map some ++
      (above.gap.map some ++ some '\x7d' :: rest)) := by
  cases members with
  | nil =>
    rw [writtenMembers_nil, List.map_nil, List.nil_append]
    exact endsNumber_close above (by decide) rest
  | cons m members => rw [writtenMembers_cons]; exact endsNumber_cons (by decide) _

end TypedTables.Json
