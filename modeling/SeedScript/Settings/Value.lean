import SeedScript.Text.Blank
import SeedScript.Text.LowerCase
import SeedScript.Validation

/-!
# Values of settings

Settings are texts. A switch has one of six words for each position; a whole number may have white
space around it, a plus sign, leading zeros, single underscores between digits, and a fraction of
zeros. A number is read as it stands if that is possible, and otherwise without these.
-/

namespace SeedScript.Settings

open Validation (Fault)

def trueWords : List String := ["1", "on", "t", "true", "y", "yes"]

def falseWords : List String := ["0", "off", "f", "false", "n", "no"]

def readSwitch (s : String) : Except Fault Bool :=
  let word := String.ofList (s.toList.map Char.toLower)
  if trueWords.contains word then .ok true
  else if falseWords.contains word then .ok false
  else .error .notBoolean

namespace WholeNumber

def dropPlus : List Char → Option (List Char)
  | '+' :: '-' :: _ => none
  | '+' :: cs => some cs
  | cs => some cs

/-- Drops zeros, and underscores among them, up to the last before a point or the end. A minus may
come after them. -/
def dropZerosAfter (last : Char) : List Char → Option (List Char)
  | [] => some [last]
  | c :: cs =>
    if c = '0' || c = '_' then dropZerosAfter c cs
    else if c.isDigit || c = '-' then some (c :: cs)
    else if c = '.' then some (last :: c :: cs)
    else none

def dropLeadingZeros : List Char → Option (List Char)
  | '0' :: cs => dropZerosAfter '0' cs
  | c :: cs => if c.isDigit || c = '-' then some (c :: cs) else none
  | [] => none

def dropFraction (cs : List Char) : List Char :=
  match cs.dropWhile (· ≠ '.') with
  | '.' :: '0' :: rest => if rest.all (· = '0') then cs.takeWhile (· ≠ '.') else cs
  | _ => cs

def hasPair (c : Char) : List Char → Bool
  | a :: b :: cs => (a = c && b = c) || hasPair c (b :: cs)
  | _ => false

/-- Drops underscores if each stands alone and inside. -/
def dropUnderscores (cs : List Char) : List Char :=
  if cs.head? = some '_' || cs.getLast? = some '_' || hasPair '_' cs then cs
  else cs.filter (· ≠ '_')

/-- The bare form of a number: what may surround it is dropped, and so are zeros behind its sign. -/
def bare (cs : List Char) : Option (List Char) :=
  match dropPlus (Text.trimList Text.isPadding cs) with
  | none => none
  | some ('-' :: cs) =>
    (dropLeadingZeros cs).map fun cs => '-' :: dropUnderscores (dropFraction cs)
  | some cs => (dropLeadingZeros cs).map fun cs => dropUnderscores (dropFraction cs)

def digitLimit : Nat := 4300

/-- The number that digits spell, unless it has leading zeros. More digits than can be read are too
many whatever comes after them. -/
def readDigits (cs : List Char) : Except Fault Nat :=
  let digits := cs.takeWhile Char.isDigit
  if cs = ['0'] then .ok 0
  else if digits.isEmpty || digits.head? = some '0' then .error .notInteger
  else if digitLimit < digits.length then .error .integerTooLong
  else if digits.length < cs.length then .error .notInteger
  else .ok (digits.foldl (fun n c => 10 * n + (c.toNat - 48)) 0)

def readSigned : List Char → Except Fault Int
  | '-' :: cs => (readDigits cs).map fun n => -(n : Int)
  | cs => (readDigits cs).map Int.ofNat

end WholeNumber

open WholeNumber in
/-- The number that a text spells. Only a text that needs no change can be refused for its length. -/
def readWhole (s : String) : Except Fault Int :=
  match readSigned s.toList with
  | .error .notInteger =>
    match bare s.toList with
    | some cs => (readSigned cs).mapError fun _ => .notInteger
    | none => .error .notInteger
  | result => result

end SeedScript.Settings
