/-
The shortest decimal of a binary number: among the decimals that round to it those with the fewest
digits, of these the nearest, and of two equally near ones the even one. Its digits are found on
decimal grids of one digit, two digits and so on. If a point of a grid rounds to the number, so does
one of the number's two neighbours on that grid, so only these are tried.
-/
import TypedTables.Decimal.Binary

namespace TypedTables.Decimal

/-- The exponent of the first decimal digit of a positive ratio. -/
def leadingExponent (num den : Nat) : Int :=
  if den ≤ num then ((Nat.toDigits 10 (num / den)).length : Int) - 1
  else -((Nat.toDigits 10 ((den + num - 1) / num - 1)).length : Int)

/-- The interval of numbers that round to `m * 2 ^ e`, in quarters of `2 ^ e`. Below a power of two
the next number is only half as far away. -/
def Format.interval (f : Format) (m : Nat) (e : Int) : Nat × Nat :=
  (if m = twoPow (f.bits - 1) ∧ f.least < e then 4 * m - 1 else 4 * m - 2, 4 * m + 2)

/-- A quarter of `2 ^ e` as a ratio of `10 ^ p`. -/
def quarterInGrid (e p : Int) : Nat × Nat :=
  (twoPow (e - 2).toNat * tenPow (-p).toNat, twoPow (2 - e).toNat * tenPow p.toNat)

/-- The point of the grid `10 ^ p` that rounds to `m * 2 ^ e`, the nearer of two. -/
def Format.gridPoint? (f : Format) (m : Nat) (e p : Int) : Option Nat :=
  let (a, b) := quarterInGrid e p
  let (low, high) := f.interval m e
  let rounds (k : Nat) : Bool :=
    if m % 2 = 0 then low * a ≤ k * b && k * b ≤ high * a
    else low * a < k * b && k * b < high * a
  let k := 4 * m * a / b
  let r := 4 * m * a % b
  match rounds k, rounds (k + 1) with
  | true, true => some (if 2 * r < b ∨ (2 * r = b ∧ k % 2 = 0) then k else k + 1)
  | true, false => some k
  | false, true => some (k + 1)
  | false, false => none

/-- Takes the zeros off the end of the digits. -/
def stripZeros : (fuel digits : Nat) → Int → Nat × Int
  | 0, digits, exponent => (digits, exponent)
  | fuel + 1, digits, exponent =>
    if digits ≠ 0 ∧ digits % 10 = 0 then stripZeros fuel (digits / 10) (exponent + 1)
    else (digits, exponent)

/-- The shortest decimal `digits * 10 ^ exponent` of `m * 2 ^ e`. Seventeen digits always do. -/
def Format.shortest (f : Format) (m : Nat) (e : Int) : Nat × Int :=
  if m = 0 then (0, 0)
  else
    let (num, den) := (Binary.finite false m e).ratio
    let lead := leadingExponent num den
    match (List.range 17).findSome? fun (n : Nat) =>
        (f.gridPoint? m e (lead - n)).map (·, lead - n) with
    | some (digits, exponent) => stripZeros 20 digits exponent
    | none => (0, 0)

end TypedTables.Decimal
