/-!
# Lines and positions

Text is read with every line end, of whatever convention, as one line feed. Positions in a text
are counted in lines and in characters of a line, both from one.
-/

namespace SeedScript.Text

/-- Every carriage return, with a line feed after it or not, becomes one line feed. -/
def unifyLineEnds : List Char → List Char
  | [] => []
  | '\r' :: '\n' :: cs => '\n' :: unifyLineEnds cs
  | c :: cs => (if c = '\r' then '\n' else c) :: unifyLineEnds cs

structure Position where
  line : Nat
  column : Nat
deriving DecidableEq, Repr

def Position.after (cs : List Char) : Position where
  line := cs.count '\n' + 1
  column := (cs.reverse.takeWhile (· ≠ '\n')).length + 1

/-- The position of an end `rest` of the text `cs`. -/
def Position.of (cs rest : List Char) : Position :=
  .after (cs.take (cs.length - rest.length))

end SeedScript.Text
