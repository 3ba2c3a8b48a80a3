/-
Laying out the digits of a decimal: with a point among or beside the digits when the exponent of
the first digit lies in a given range, else with a point behind the first digit and an exponent.
-/
import TypedTables.Decimal.Shortest

namespace TypedTables.Decimal

/-- The least and the greatest exponent of the first digit for which no exponent is written. -/
structure Layout where
  plainFrom : Int
  plainTo : Int
  deriving DecidableEq, Repr

/-- 32-bit numbers are written plainly from `0.000001` to below `10 ^ 13`. -/
def Layout.single : Layout := ⟨-6, 12⟩

/-- 64-bit numbers are written plainly from `0.00001` to below `10 ^ 16`. -/
def Layout.double : Layout := ⟨-5, 15⟩

/-- Digits with a point before the one at position `at_`, and a zero where a side would be empty. -/
def placePoint (digits : List Char) (whole : Int) : List Char :=
  if whole ≤ 0 then '0' :: '.' :: (List.replicate (-whole).toNat '0' ++ digits)
  else if (digits.length : Int) ≤ whole then
    digits ++ List.replicate (whole.toNat - digits.length) '0' ++ ['.', '0']
  else digits.take whole.toNat ++ '.' :: digits.drop whole.toNat

/-- Digits with a point behind the first and an exponent with its sign. -/
def placeExponent (digits : List Char) (lead : Int) : List Char :=
  let fraction := match digits.drop 1 with
    | [] => []
    | rest => '.' :: rest
  digits.take 1 ++ fraction ++
    'e' :: (if lead < 0 then '-' else '+') :: Nat.toDigits 10 lead.natAbs

/-- Writes `digits * 10 ^ exponent`. -/
def Layout.write (l : Layout) (digits : Nat) (exponent : Int) : List Char :=
  let ds := Nat.toDigits 10 digits
  let lead := exponent + ds.length - 1
  if digits = 0 then ['0', '.', '0']
  else if l.plainFrom ≤ lead ∧ lead ≤ l.plainTo then placePoint ds (lead + 1)
  else placeExponent ds lead

/-- Writes a finite number of a format by its shortest decimal; `none` for an infinity. -/
def Layout.ofBinary? (l : Layout) (f : Format) : Binary → Option (List Char)
  | .infinite _ => none
  | .finite negative m e =>
    let (digits, exponent) := f.shortest m e
    some ((if negative then ['-'] else []) ++ l.write digits exponent)

end TypedTables.Decimal
