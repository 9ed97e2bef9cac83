import SeedScript.Decimal.Binary64

/-!
# Shortest decimal numerals

The fewest digits that read back as a number, and among those the nearest to it. A numeral reads
back when it lies between the midpoints to the two neighbouring numbers; a midpoint itself reads
back as the number with the even mantissa.
-/

namespace SeedScript.Decimal

/-- Twice the distance data of a positive number in units of a quarter of its last place: the
lower midpoint, the number itself and the upper midpoint, all times `2 ^ (exponent - 2)`. Below a
power of two the numbers are half as far apart. -/
structure Interval where
  low : Nat
  value : Nat
  high : Nat
  closed : Bool
  exponent : Int

def Interval.of (mantissa : Nat) (exponent : Int) : Interval where
  low := if mantissa = Nat.pow 2 52 ∧ Binary64.leastExponent < exponent then 4 * mantissa - 1
    else 4 * mantissa - 2
  value := 4 * mantissa
  high := 4 * mantissa + 2
  closed := mantissa % 2 = 0
  exponent := exponent - 2

/-- A fraction in lowest relation to the units of an interval: the point `digits * 10 ^ power`
compared with `n * 2 ^ exponent` is `digits * left` compared with `n * right`. -/
def scales (power exponent : Int) : Nat × Nat :=
  let left :=
    (if power < 0 then 1 else Nat.pow 10 power.toNat) *
      (if exponent < 0 then Nat.pow 2 (-exponent).toNat else 1)
  let right :=
    (if power < 0 then Nat.pow 10 (-power).toNat else 1) *
      (if exponent < 0 then 1 else Nat.pow 2 exponent.toNat)
  (left, right)

namespace Interval

/-- Whether the point `digits * 10 ^ power` reads back as the number of the interval. -/
def contains (i : Interval) (digits : Nat) (power : Int) : Bool :=
  let (left, right) := scales power i.exponent
  let point := digits * left
  if i.closed then i.low * right ≤ point && point ≤ i.high * right
  else i.low * right < point && point < i.high * right

/-- Of the two neighbours of the number on the grid of `10 ^ power`, the nearest that reads back;
an exact tie goes to the even one. -/
def candidate? (i : Interval) (power : Int) : Option Nat :=
  let (left, right) := scales power i.exponent
  let below := i.value * right / left
  let toBelow := i.value * right - below * left
  let toAbove := (below + 1) * left - i.value * right
  let belowOk := i.contains below power
  let aboveOk := i.contains (below + 1) power
  if belowOk && aboveOk then
    if toBelow < toAbove then some below
    else if toAbove < toBelow then some (below + 1)
    else some (if below % 2 = 0 then below else below + 1)
  else if belowOk then some below
  else if aboveOk then some (below + 1)
  else none

/-- The first grid, from the coarsest on, with a point that reads back. -/
def search (i : Interval) : Nat → Int → Nat × Int
  | 0, power => ((i.candidate? power).getD 0, power)
  | fuel + 1, power =>
    match i.candidate? power with
    | some digits => if digits = 0 then search i fuel (power - 1) else (digits, power)
    | none => search i fuel (power - 1)

end Interval

/-- A power of ten that exceeds the number `mantissa * 2 ^ exponent`, and by little. -/
def powerAbove (mantissa : Nat) (exponent : Int) : Int :=
  let bits : Int := mantissa.log2 + 1 + exponent
  bits * 30103 / 100000 + 2

def trimZeros : Nat → Nat → Int → Nat × Int
  | 0, digits, power => (digits, power)
  | fuel + 1, digits, power =>
    if digits ≠ 0 ∧ digits % 10 = 0 then trimZeros fuel (digits / 10) (power + 1)
    else (digits, power)

/-- The shortest numeral of the positive number `mantissa * 2 ^ exponent`, as `digits * 10 ^ power`
with a last digit that is not zero. Twenty-four grids below the leading power are enough, since
seventeen digits always read back. -/
def shortest (mantissa : Nat) (exponent : Int) : Nat × Int :=
  let (digits, power) := (Interval.of mantissa exponent).search 24 (powerAbove mantissa exponent)
  trimZeros 24 digits power

end SeedScript.Decimal
