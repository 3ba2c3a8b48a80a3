/-
Numbers written in decimal: integers with an optional sign, and numerals with an optional fraction
and exponent or one of the words for infinity and for no number. Their value is rounded once, to the
nearest number of a binary format.
-/
import TypedTables.Decimal.Binary

namespace TypedTables.Decimal

/-! ## Digits -/

def digitValue (c : Char) : Nat := c.toNat - 48

/-- The number that digits denote when `n` stands before them. -/
def valueFrom (n : Nat) (ds : List Char) : Nat := ds.foldl (fun n d => 10 * n + digitValue d) n

def valueOf (ds : List Char) : Nat := valueFrom 0 ds

/-- The digits at the front, and what follows them. -/
def spanDigits (cs : List Char) : List Char × List Char :=
  (cs.takeWhile Char.isDigit, cs.dropWhile Char.isDigit)

/-- A leading sign: whether it is a minus, and what follows it. -/
def dropSign : List Char → Bool × List Char
  | '-' :: rest => (true, rest)
  | '+' :: rest => (false, rest)
  | cs => (false, cs)

/-! ## Integers -/

/-- The integer that an optional sign and at least one digit denote. -/
def readInt? (cs : List Char) : Option Int :=
  let (negative, ds) := dropSign cs
  if ds.isEmpty || !ds.all Char.isDigit then none
  else some (if negative then -(valueOf ds : Int) else valueOf ds)

/-! ## Numerals -/

/-- A numeral: an infinity, no number, or `digits * 10 ^ exponent`. -/
inductive Numeral where
  | infinite (negative : Bool)
  | notANumber
  | finite (negative : Bool) (digits : Nat) (exponent : Int)
  deriving DecidableEq, Repr

/-- The exponent behind a significand: nothing, or an `e`, an optional sign and digits. -/
def readExponent? : List Char → Option Int
  | [] => some 0
  | c :: rest => if c = 'e' ∨ c = 'E' then readInt? rest else none

/-- A numeral made of digits: some before or behind an optional point, then an exponent. -/
def readDigits? (negative : Bool) (cs : List Char) : Option Numeral :=
  let (whole, rest) := spanDigits cs
  let (fraction, rest) := match rest with
    | '.' :: tail => spanDigits tail
    | _ => ([], rest)
  if whole.isEmpty && fraction.isEmpty then none
  else (readExponent? rest).map fun e =>
    .finite negative (valueOf (whole ++ fraction)) (e - fraction.length)

/-- Reads a numeral with an optional sign; words are read in any case. -/
def Numeral.read? (cs : List Char) : Option Numeral :=
  let (negative, rest) := dropSign cs
  let word := String.ofList (rest.map Char.toLower)
  if word = "inf" ∨ word = "infinity" then some (.infinite negative)
  else if word = "nan" then some .notANumber
  else readDigits? negative rest

/-- No number of the two formats lies outside of `10 ^ -400` and `10 ^ 400`. -/
def farExponent : Int := 400

/-- The nearest number of a format; `none` for no number. -/
def Numeral.toBinary (f : Format) : Numeral → Option Binary
  | .infinite negative => some (.infinite negative)
  | .notANumber => none
  | .finite negative digits exponent =>
    let magnitude : Int := (Nat.toDigits 10 digits).length + exponent
    if digits = 0 then some (.finite negative 0 f.least)
    else if farExponent < magnitude then some (.infinite negative)
    else if magnitude < -farExponent then some (.finite negative 0 f.least)
    else if 0 ≤ exponent then some (f.round negative (digits * tenPow exponent.toNat) 1)
    else some (f.round negative digits (tenPow (-exponent).toNat))

end TypedTables.Decimal
