/-
Binary floating-point numbers of a given format, held exactly as a significand times a power of two,
and rounding of a ratio of natural numbers to the nearest of them, a tie going to the even
significand.
-/

namespace TypedTables.Decimal

/-- A binary format: the number of significant bits and the least and greatest exponent of the last
bit. -/
structure Format where
  bits : Nat
  least : Int
  greatest : Int
  deriving DecidableEq, Repr

def Format.single : Format := ⟨24, -149, 104⟩

def Format.double : Format := ⟨53, -1074, 971⟩

/-- A number of a binary format. A finite one is `significand * 2 ^ exponent`. -/
inductive Binary where
  | infinite (negative : Bool)
  | finite (negative : Bool) (significand : Nat) (exponent : Int)
  deriving DecidableEq, Repr

/-- Neither infinity is finite. -/
def Binary.isFinite : Binary → Bool
  | .infinite _ => false
  | .finite .. => true

def Binary.isNegative : Binary → Bool
  | .infinite negative => negative
  | .finite negative _ _ => negative

def Binary.negate : Binary → Binary
  | .infinite negative => .infinite !negative
  | .finite negative m e => .finite (!negative) m e

def Binary.isZero : Binary → Bool
  | .infinite _ => false
  | .finite _ m _ => m == 0

/-! ## Rounding -/

def twoPow (n : Nat) : Nat := Nat.pow 2 n

def tenPow (n : Nat) : Nat := Nat.pow 10 n

/-- `num / den` as a number of units `2 ^ e`, again as a ratio. -/
def inUnits (num den : Nat) (e : Int) : Nat × Nat :=
  if 0 ≤ e then (num, den * twoPow e.toNat) else (num * twoPow (-e).toNat, den)

/-- The whole number nearest to `num / den`, the even one of two. -/
def roundRatio (num den : Nat) : Nat :=
  let q := num / den
  let r := num % den
  if 2 * r < den ∨ (2 * r = den ∧ q % 2 = 0) then q else q + 1

/-- The exponent of the last bit for a positive ratio. -/
def Format.unitExponent (f : Format) (num den : Nat) : Int :=
  let guess : Int := (num.log2 : Int) - den.log2 - f.bits
  let (a, b) := inUnits num den guess
  max f.least (if a / b < twoPow f.bits then guess else guess + 1)

/-- The number of the format nearest to `num / den`. -/
def Format.round (f : Format) (negative : Bool) (num den : Nat) : Binary :=
  if num = 0 then .finite negative 0 f.least
  else
    let e := f.unitExponent num den
    let (a, b) := inUnits num den e
    let m := roundRatio a b
    let (m, e) := if m = twoPow f.bits then (twoPow (f.bits - 1), e + 1) else (m, e)
    if f.greatest < e then .infinite negative else .finite negative m e

/-- The magnitude of a finite number as a ratio; `0 / 1` for the others. -/
def Binary.ratio : Binary → Nat × Nat
  | .infinite _ => (0, 1)
  | .finite _ m e => if 0 ≤ e then (m * twoPow e.toNat, 1) else (m, twoPow (-e).toNat)

/-- The nearest number of another format. -/
def Binary.toFormat (f : Format) : Binary → Binary
  | .infinite negative => .infinite negative
  | .finite negative m e =>
    let (num, den) := (Binary.finite negative m e).ratio
    f.round negative num den

/-- The nearest number to an integer. -/
def Format.ofInt (f : Format) (n : Int) : Binary := f.round (n < 0) n.natAbs 1

/-- The rounded product of two numbers. -/
def Format.mul (f : Format) (x y : Binary) : Binary :=
  let negative := x.isNegative != y.isNegative
  if x.isFinite && y.isFinite then
    f.round negative (x.ratio.1 * y.ratio.1) (x.ratio.2 * y.ratio.2)
  else .infinite negative

/-- The rounded quotient of a finite number by a finite one that is not zero. -/
def Format.div (f : Format) (x y : Binary) : Binary :=
  f.round (x.isNegative != y.isNegative) (x.ratio.1 * y.ratio.2) (x.ratio.2 * y.ratio.1)

end TypedTables.Decimal
