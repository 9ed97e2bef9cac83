import SeedScript.Compile
import SeedScript.Dataset
import SeedScript.Output

/-!
# Seed jobs

A job reads datasets, compiles them and writes outputs. All reading and compiling is done before the
first output is written, so a bad dataset leaves every file as it was.
-/

namespace SeedScript

open Files (Path Tree)

inductive Job where
  /-- Countries alone, with an export of their identifiers if it has a path. -/
  | countries (input output : String) (identifiersOutput : Option String)
  /-- Banks alone: their countries are given by identifiers. -/
  | banks (input output : String) (names : Option NameSource)
  /-- Both tables; banks may name their countries. -/
  | all (countriesInput banksInput countriesOutput banksOutput : String)
    (identifiersOutput : Option String) (names : Option NameSource)

structure Outcome where
  table : String
  path : Path
  rowCount : Nat
  statementCount : Nat
deriving DecidableEq, Repr

/-- What is left to do of a job when everything is compiled. -/
structure Prepared where
  outputs : List Output
  completed : Log.Event

namespace Prepared

def outcomes (p : Prepared) : List Outcome :=
  p.outputs.filterMap fun o =>
    match o.product with
    | .script => some ⟨o.set.table, o.path, o.set.rowCount, o.set.statements.length⟩
    | .identifiers => none

end Prepared

namespace Job

open Log.Event (text count)

def script (path : String) (set : StatementSet) : Output :=
  ⟨.script, .ofText path, set⟩

def exports (path : Option String) (set : StatementSet) : List Output :=
  (path.map fun p => ⟨.identifiers, .ofText p, set⟩).toList

def completed (context : Log.Fields) (fields : Log.Fields) : Log.Event :=
  (Log.Logger.ofContext context).event .info "seed_job_completed" fields

def completedOne (job input output : String) (set : StatementSet) : Log.Event :=
  completed [("job", text job), ("input", text input)]
    [("output", text (Path.ofText output).text), ("rows", count set.rowCount)]

def prepare (tree : Tree) (fullReseed : Bool) : Job → RunStep Prepared
  | countries input output identifiersOutput => do
    let records ← Dataset.loadCountries tree input
    let set ← compileCountries records fullReseed
    pure ⟨script output set :: exports identifiersOutput set,
      completedOne "countries" input output set⟩
  | banks input output names => do
    let records ← Dataset.loadBanks tree input names
    let set ← compileBanks records {} fullReseed
    pure ⟨[script output set], completedOne "banks" input output set⟩
  | all countriesInput banksInput countriesOutput banksOutput identifiersOutput names => do
    let countries ← Dataset.loadCountries tree countriesInput
    let banks ← Dataset.loadBanks tree banksInput names
    let (countrySet, bankSet) ← compileSeed countries banks fullReseed
    pure ⟨script countriesOutput countrySet :: exports identifiersOutput countrySet ++
        [script banksOutput bankSet],
      completed [("job", text "all")]
        [("countries", count countrySet.rowCount), ("banks", count bankSet.rowCount)]⟩

/-- Runs a job: its outcomes or its error, the files after it, and its progress. -/
def run (job : Job) (fullReseed : Bool) (tree : Tree) (p : Progress) :
    Except Error (List Outcome) × Tree × Progress :=
  match job.prepare tree fullReseed p with
  | (.error e, p) => (.error e, tree, p)
  | (.ok prepared, p) =>
    match Output.writeAll tree prepared.outputs with
    | (.error e, events, tree) => (.error e, tree, { p with events := p.events ++ events })
    | (.ok (), events, tree) =>
      (.ok prepared.outcomes, tree, { p with events := p.events ++ events ++ [prepared.completed] })

end Job
end SeedScript
