import SeedScript.Error
import SeedScript.Log.Event
import SeedScript.Supply

/-!
# The progress of a run

What a run consumes and leaves behind apart from files: the identifiers and company names it
draws, the batch of identifiers it has issued, the name generators it has made, and its events. An
action changes the progress and gives a result or an error; what it did before an error stays.
-/

namespace SeedScript

/-- What fixes the names that a generator makes. -/
inductive Seed where
  | number (n : Int)
  /-- A seed was asked for, and no value came with it. -/
  | empty
deriving DecidableEq, Repr

structure Generator where
  locale : String
  seed : Option Seed
deriving DecidableEq, Repr

structure Progress where
  identifiers : Supply Identifier
  /-- The identifiers of the present batch, the latest first. -/
  issued : List Identifier := []
  companies : Supply String
  generators : List Generator := []
  events : List Log.Event := []

namespace Progress

def newBatch (p : Progress) : Progress :=
  { p with issued := [] }

end Progress

abbrev RunStep (α : Type) := ExceptT Error (StateM Progress) α

namespace RunStep

def ofResult {α : Type} (r : Except Error α) : RunStep α :=
  fun p => (r, p)

def report (e : Log.Event) : RunStep Unit :=
  fun p => (.ok (), { p with events := p.events ++ [e] })

def addGenerator (g : Generator) : RunStep Unit :=
  fun p => (.ok (), { p with generators := p.generators ++ [g] })

/-- Draws the next identifier. One that the batch has issued already is an error, and is drawn
all the same. -/
def assign : RunStep Identifier := fun p =>
  let i := p.identifiers.get 0
  let drawn := { p with identifiers := p.identifiers.drop 1 }
  if i ∈ p.issued then (.error (.ofProblem (.repeatedIdentifier i)), drawn)
  else (.ok i, { drawn with issued := i :: p.issued })

/-- Draws `n` identifiers, or as many as it takes to draw one again. -/
def assignMany : Nat → RunStep (List Identifier)
  | 0 => pure []
  | n + 1 => do
    let i ← assign
    let rest ← assignMany n
    pure (i :: rest)

end RunStep
end SeedScript
