/-!
# White space

Which characters separate words, and the two operations that need to know: trimming a text and
cutting it into words. The class is wider than ASCII: it has the four information separators,
NEL, and every space or line separator of Unicode. It leaves out the zero-width characters.
-/

namespace SeedScript.Text

def isBlank (c : Char) : Bool :=
  let n := c.toNat
  (9 ≤ n && n ≤ 13) || (28 ≤ n && n ≤ 32) || n == 0x85 || n == 0xA0 || n == 0x1680 ||
    (0x2000 ≤ n && n ≤ 0x200A) || n == 0x2028 || n == 0x2029 || n == 0x202F || n == 0x205F ||
    n == 0x3000

/-- The white space that may stand around a number: all but the information separators. -/
def isPadding (c : Char) : Bool :=
  isBlank c && !(28 ≤ c.toNat && c.toNat ≤ 31)

def dropEndWhile {α : Type} (p : α → Bool) (xs : List α) : List α :=
  (xs.reverse.dropWhile p).reverse

def trimList {α : Type} (p : α → Bool) (xs : List α) : List α :=
  dropEndWhile p (xs.dropWhile p)

def strip (s : String) : String :=
  String.ofList (trimList isBlank s.toList)

def isBlankText (s : String) : Bool :=
  s.toList.all isBlank

/-- The maximal runs of items that do not satisfy `p`, in order. -/
def splitRuns {α : Type} (p : α → Bool) : List α → List (List α)
  | [] => []
  | x :: xs =>
    if p x then splitRuns p xs
    else
      match xs, splitRuns p xs with
      | y :: _, run :: runs => if p y then [x] :: run :: runs else (x :: run) :: runs
      | _, runs => [x] :: runs

def words (s : String) : List String :=
  (splitRuns isBlank s.toList).map String.ofList

end SeedScript.Text
