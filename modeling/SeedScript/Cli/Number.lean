import SeedScript.Text.Blank
import SeedScript.Text.Digit

/-!
# Numbers among arguments

A whole number on the command line may have white space around it, a sign, decimal digits of any
script, and single underscores between digits.
-/

namespace SeedScript.Cli

def digitLimit : Nat := 4300

def natural? (cs : List Char) : Option Nat :=
  match Text.groupedDigits? Text.digitValue? cs with
  | some ds => if ds.length ≤ digitLimit then some (ds.foldl (fun n d => 10 * n + d) 0) else none
  | none => none

def integer? (s : String) : Option Int :=
  match Text.trimList Text.isPadding s.toList with
  | '-' :: cs => (natural? cs).map fun n => -(n : Int)
  | '+' :: cs => (natural? cs).map Int.ofNat
  | cs => (natural? cs).map Int.ofNat

/-- Whether an argument looks like a negative number: a minus, and digits with at most one point in
front of some of them. A line feed may follow. -/
def isNegative (s : String) : Bool :=
  match s.toList with
  | '-' :: cs =>
    let cs := if cs.getLast? = some '\n' then cs.dropLast else cs
    match cs.takeWhile Text.isDigit, cs.dropWhile Text.isDigit with
    | _ :: _, [] => true
    | _, '.' :: rest => !rest.isEmpty && rest.all Text.isDigit
    | _, _ => false
  | _ => false

end SeedScript.Cli
