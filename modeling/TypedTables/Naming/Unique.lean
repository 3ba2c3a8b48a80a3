/-
Claiming names one after the other so that no two are equal. A claim takes its base name if that
is free and otherwise the base with the separator and the least number from 2 on that makes it
free. Such a number is always among the first `taken.length + 1`, as that many different names
cannot all be taken.
-/

namespace TypedTables.Naming

/-- The base with a number behind it. -/
def numbered (base separator : String) (n : Nat) : String := base ++ separator ++ toString n

/-- The least number from 2 on whose numbered name is free. -/
def freeNumber (base separator : String) (taken : List String) : Nat :=
  ((List.range' 2 (taken.length + 1)).find? fun n =>
    !taken.contains (numbered base separator n)).getD 0

/-- The name that a claim gets. -/
def freeName (base separator : String) (taken : List String) : String :=
  if taken.contains base then numbered base separator (freeNumber base separator taken) else base

/-- The name that a claim gets, and the names taken after it. -/
def claim (base separator : String) (taken : List String) : String × List String :=
  let name := freeName base separator taken
  (name, name :: taken)

/-- The names that claims made in order get, and the names taken after them. -/
def claimAll (claims : List (String × String)) (taken : List String) :
    List String × List String :=
  match claims with
  | [] => ([], taken)
  | (base, separator) :: rest =>
    let (name, taken') := claim base separator taken
    let (names, final) := claimAll rest taken'
    (name :: names, final)

/-- The names taken, each once and in ascending order. -/
def takenNames (taken : List String) : List String := taken.eraseDups.mergeSort (· ≤ ·)

end TypedTables.Naming
