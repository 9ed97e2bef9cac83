import SeedScript.Decimal.Shortest

/-!
# How numbers are shown

A number is shown by its shortest numeral: positional from `1e-4` up to below `1e16`, with at
least one digit after the point, and otherwise with one digit before the point and an exponent of
a sign and at least two digits. Numerals are read in the same forms.
-/

namespace SeedScript.Decimal

/-- Where a format writes numbers positionally, and how it writes exponents. -/
structure Format where
  /-- Positional notation is for leading digits worth at least ten to this power … -/
  leastPositional : Int
  /-- … and below ten to this one. -/
  firstExponential : Int
  exponentWidth : Nat

def Format.cell : Format := ⟨-4, 16, 2⟩

def padLeft (width : Nat) (digits : String) : String :=
  String.ofList (List.replicate (width - digits.length) '0') ++ digits

namespace Format

/-- The digits of a numeral, written with a point after the first `n` of them. -/
def positional (digits : String) (n : Int) : String :=
  if n ≤ 0 then "0." ++ String.ofList (List.replicate (-n).toNat '0') ++ digits
  else
    let cs := digits.toList
    let whole := cs.take n.toNat ++ List.replicate (n.toNat - cs.length) '0'
    let fraction := cs.drop n.toNat
    String.ofList whole ++ "." ++ (if fraction.isEmpty then "0" else String.ofList fraction)

def exponential (f : Format) (digits : String) (exponent : Int) : String :=
  let fraction := digits.toList.drop 1
  String.ofList (digits.toList.take 1) ++
    (if fraction.isEmpty then "" else "." ++ String.ofList fraction) ++
    (if exponent < 0 then "e-" else "e+") ++ padLeft f.exponentWidth (toString exponent.natAbs)

def numeral (f : Format) (digits : Nat) (power : Int) : String :=
  let text := toString digits
  let exponent := power + text.length - 1
  if f.leastPositional ≤ exponent ∧ exponent < f.firstExponential then
    positional text (exponent + 1)
  else f.exponential text exponent

end Format

namespace Binary64

def display : Binary64 → String
  | nan => "nan"
  | infinite negative => if negative then "-inf" else "inf"
  | finite negative mantissa exponent =>
    (if negative then "-" else "") ++
      (if mantissa = 0 then "0.0"
       else
        let (digits, power) := shortest mantissa exponent
        Format.cell.numeral digits power)

/-- Splits a list before the first item that satisfies `p`. -/
def breakAt (p : Char → Bool) (cs : List Char) : List Char × List Char :=
  (cs.takeWhile (!p ·), cs.dropWhile (!p ·))

def natOfDigits (cs : List Char) : Option Nat :=
  if cs.all Char.isDigit then some (cs.foldl (fun n c => 10 * n + (c.toNat - 48)) 0) else none

def readExponent? : List Char → Option Int
  | '-' :: cs => if cs.isEmpty then none else (natOfDigits cs).map fun n => -(n : Int)
  | '+' :: cs => if cs.isEmpty then none else (natOfDigits cs).map fun n => (n : Int)
  | cs => if cs.isEmpty then none else (natOfDigits cs).map fun n => (n : Int)

def readMagnitude? (negative : Bool) (cs : List Char) : Option Binary64 := do
  let (significand, exponent) := breakAt (fun c => c = 'e' || c = 'E') cs
  let (whole, fraction) := breakAt (· = '.') significand
  let fraction := fraction.drop 1
  if whole.isEmpty && fraction.isEmpty then none
  let digits ← natOfDigits (whole ++ fraction)
  let power ← if exponent.isEmpty then some 0 else readExponent? (exponent.drop 1)
  some (ofScientific negative digits (power - fraction.length))

def readUnsigned? (negative : Bool) (cs : List Char) : Option Binary64 :=
  let word := String.ofList (cs.map Char.toLower)
  if word = "nan" then some nan
  else if word = "inf" || word = "infinity" then some (infinite negative)
  else readMagnitude? negative cs

def parse? (s : String) : Option Binary64 :=
  match s.toList with
  | '-' :: cs => readUnsigned? true cs
  | '+' :: cs => readUnsigned? false cs
  | cs => readUnsigned? false cs

end Binary64
end SeedScript.Decimal
