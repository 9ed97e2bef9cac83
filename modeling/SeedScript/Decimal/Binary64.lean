/-!
# Binary floating point numbers of 64 bits

A finite number is a mantissa below `2 ^ 53` times a power of two, with the least exponent that
the format has room for. Reading a decimal numeral gives the nearest number, and of two nearest
ones that with the even mantissa.
-/

namespace SeedScript.Decimal

/-- A number of the 64-bit binary format. A finite one is `mantissa * 2 ^ exponent`, and the
mantissa has 53 bits unless the exponent is the least one. -/
inductive Binary64 where
  | nan
  | infinite (negative : Bool)
  | finite (negative : Bool) (mantissa : Nat) (exponent : Int)
deriving DecidableEq, Repr

namespace Binary64

def leastExponent : Int := -1074

def greatestExponent : Int := 971

/-- The quotient rounded to the nearest natural number; of two, the even one. -/
def divideToNearest (numerator denominator : Nat) : Nat :=
  let q := numerator / denominator
  let twice := 2 * (numerator % denominator)
  if twice < denominator then q
  else if denominator < twice then q + 1
  else if q % 2 = 0 then q else q + 1

/-- The number nearest to `numerator / denominator`. -/
def ofQuotient (negative : Bool) (numerator denominator : Nat) : Binary64 :=
  if numerator = 0 then finite negative 0 leastExponent
  else
    let size : Int := numerator.log2 - denominator.log2
    -- The quotient is at least `2 ^ (size - 1)` and below `2 ^ (size + 1)`.
    let scaled (e : Int) : Nat × Nat :=
      if e < 0 then (numerator * Nat.pow 2 (-e).toNat, denominator)
      else (numerator, denominator * Nat.pow 2 e.toNat)
    let low := max leastExponent (size - 53)
    let e := if Nat.pow 2 53 ≤ (scaled low).1 / (scaled low).2 then low + 1 else low
    let m := divideToNearest (scaled e).1 (scaled e).2
    let (m, e) := if m = Nat.pow 2 53 then (Nat.pow 2 52, e + 1) else (m, e)
    if greatestExponent < e then infinite negative else finite negative m e

/-- The number nearest to `digits * 10 ^ power`. -/
def ofScientific (negative : Bool) (digits : Nat) (power : Int) : Binary64 :=
  if digits = 0 then finite negative 0 leastExponent
  else if 400 < power then infinite negative
  else if power + Nat.log2 digits < -1200 then finite negative 0 leastExponent
  else if power < 0 then ofQuotient negative digits (Nat.pow 10 (-power).toNat)
  else ofQuotient negative (digits * Nat.pow 10 power.toNat) 1

end Binary64
end SeedScript.Decimal
