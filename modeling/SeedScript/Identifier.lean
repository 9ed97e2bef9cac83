import SeedScript.Text.Blank
import SeedScript.Text.Digit
import SeedScript.Text.LowerCase
import SeedScript.Text.Quoted

/-!
# Identifiers

Rows are known by 128-bit identifiers. The canonical text is 32 lower case hexadecimal digits in
groups of 8, 4, 4, 4 and 12 with hyphens between them. Datasets may give the digits in either
case and with white space around the text, and in no other form. A text is read in any form that is
in use for such identifiers, and what was read is kept if its canonical text is the lower case of
the text.
-/

namespace SeedScript

/-- How many identifiers there are: one for each sequence of 32 hexadecimal digits. -/
def identifierCount : Nat := Nat.pow 16 32

structure Identifier where
  number : Nat
  lt : number < identifierCount
deriving DecidableEq

namespace Identifier

def ofNat (n : Nat) : Identifier :=
  ⟨n % identifierCount, Nat.mod_lt _ (by decide)⟩

def groups : List Nat := [8, 4, 4, 4, 12]

/-- Digits cut into groups of the given lengths, with a hyphen after each group but the last. -/
def hyphenate : List Nat → List Char → List Char
  | [], _ => []
  | [n], digits => digits.take n
  | n :: lengths, digits => digits.take n ++ '-' :: hyphenate lengths (digits.drop n)

def text (i : Identifier) : String :=
  String.ofList (hyphenate groups (Text.hexDigits 32 i.number))

instance : ToString Identifier := ⟨text⟩

def hexValue? (c : Char) : Option Nat :=
  if '0' ≤ c ∧ c ≤ '9' then some (c.toNat - 48)
  else if 'a' ≤ c ∧ c ≤ 'f' then some (c.toNat - 87)
  else if 'A' ≤ c ∧ c ≤ 'F' then some (c.toNat - 55)
  else none

/-- The values of `n` digits at the head of a text, and what follows them. -/
def readDigits : Nat → List Char → Option (List Nat × List Char)
  | 0, cs => some ([], cs)
  | _ + 1, [] => none
  | n + 1, c :: cs =>
    match hexValue? c, readDigits n cs with
    | some d, some (ds, rest) => some (d :: ds, rest)
    | _, _ => none

def spell (digits : List Nat) : Nat :=
  digits.foldl (fun n d => 16 * n + d) 0

/-- The value of a digit to the base 16: a letter of ASCII, or a decimal digit of any script. -/
def anyHexValue? (c : Char) : Option Nat :=
  match hexValue? c with
  | some d => some d
  | none => Text.digitValue? c

def dropPlus : List Char → List Char
  | '+' :: cs => cs
  | cs => cs

/-- What follows the mark of the base, a zero and an x, and one underscore behind it. -/
def dropBaseMark : List Char → List Char
  | zero :: x :: cs =>
    if anyHexValue? zero = some 0 && (x = 'x' || x = 'X') then
      match cs with
      | '_' :: cs => cs
      | cs => cs
    else zero :: x :: cs
  | cs => cs

/-- A number to the base 16 as people write it: with white space around it, a plus in front, the mark
of the base, and single underscores between digits. -/
def number? (cs : List Char) : Option Nat :=
  (Text.groupedDigits? anyHexValue? (dropBaseMark (dropPlus (Text.trimList Text.isPadding cs)))).map
    spell

def isBrace (c : Char) : Bool :=
  c = '{' || c = '}'

/-- What is left of an identifier in any form without prefixes, braces and hyphens. -/
def unwrap (cs : List Char) : List Char :=
  let cs := Text.remove ['u', 'r', 'n', ':'] cs
  let cs := Text.remove ['u', 'u', 'i', 'd', ':'] cs
  (Text.trimList isBrace cs).filter (· ≠ '-')

/-- Reads an identifier in any form that is in use: 32 characters that spell a number, with hyphens
among them, in braces, and with the prefixes that resource names have. No minus sign can be left in
front of the number, because it would be a hyphen. -/
def ofAnyForm? (cs : List Char) : Option Identifier :=
  if (unwrap cs).length = 32 then
    match number? (unwrap cs) with
    | none => none
    | some n => if lt : n < identifierCount then some ⟨n, lt⟩ else none
  else none

/-- Reads the canonical form, in either case and with white space around it. -/
def parse? (s : String) : Option Identifier :=
  let s := Text.strip s
  match ofAnyForm? s.toList with
  | none => none
  | some i => if i.text = Text.lowerCase s then some i else none

/-- Reads 32 hexadecimal digits with hyphens anywhere. -/
def ofHexDigits? (s : String) : Option Identifier :=
  match readDigits 32 (s.toList.filter (· ≠ '-')) with
  | some (ds, []) => some (ofNat (spell ds))
  | _ => none

end Identifier
end SeedScript
