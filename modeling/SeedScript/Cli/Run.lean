import SeedScript.Cli.Command
import SeedScript.Log.Setup

/-!
# Running the program

A run configures logging, reads its arguments and the settings, and runs the job. A failure is
logged, shown in one line and ends the run with code 1; a wrong use ends it with code 2. Every other
error leaves the program as it is.
-/

namespace SeedScript.Cli

open Files (Tree)

inductive Notice where
  | event (e : Log.Event)
  | text (s : String)

inductive RunEnding where
  | exit (code : Nat)
  | escaped (e : Error)

structure Execution where
  ending : RunEnding
  output : String := ""
  notices : List Notice := []
  tree : Tree
  progress : Progress

def verboseLevel : Int := 10

def outcomeLine (o : Outcome) : String :=
  "Seeder generated: " ++ o.path.text ++ " (" ++ toString o.rowCount ++ " rows)\n"

def failureLine (f : Failure) : String :=
  "Error [" ++ f.stage.word ++ "]: " ++ f.message ++ "\n"

def failureEvent (f : Failure) : Log.Event :=
  let r := f.report
  (Log.Logger.mk "finpay_seed.cli.common" []).event .error "seed_job_failed" [
    ("error_type", Log.Event.text r.type), ("failed_stage", Log.Event.text r.stage.word),
    ("message", Log.Event.text r.message),
    ("original_error_type", match r.cause with
      | some cause => Log.Event.text cause
      | none => .null)]

def runJob (c : Command) (p : Parsed) (settings : Except Error Settings) (tree : Tree)
    (progress : Progress) : Except Error (List Outcome) × Tree × Progress :=
  match settings with
  | .error e => (.error e, tree, progress)
  | .ok s =>
    match c.job p s progress with
    | (.error e, progress) => (.error e, tree, progress)
    | (.ok job, progress) => job.run (fullReseed p s) tree progress

def runCommand (m : Log.Machine) (root : Log.Root) (progress : Progress) (c : Command)
    (p : Parsed) : Execution :=
  let (result, tree, progress) := runJob c p m.settings m.tree { progress with events := [] }
  let finish (ending : RunEnding) (output : String) (events : List Log.Event) (lines : List String) :
      Execution := {
    ending, output
    notices := (root.shown events).map .event ++ lines.map .text
    tree := root.keep m.timestamp tree events
    progress }
  match result with
  | .ok outcomes =>
    finish (.exit 0) (String.join (outcomes.map outcomeLine)) progress.events []
  | .error (.failure f) =>
    finish (.exit 1) "" (progress.events ++ [failureEvent f]) [failureLine f]
  | .error e => finish (.escaped e) "" progress.events []

/-- Ends a run whose arguments ask for help or are wrong. -/
def stop (tree : Tree) (progress : Progress) (title : String) : Stop → Execution
  | .help => { ending := .exit 0, tree, progress }
  | .usage e => {
      ending := .exit 2, tree, progress
      notices := [.text (title ++ ": error: " ++ e.message ++ "\n")] }

def runDirect (m : Log.Machine) (progress : Progress) (c : Command) (arguments : List String) :
    Execution :=
  match m.configure {} with
  | .error e => { ending := .escaped e, tree := m.tree, progress }
  | .ok (root, tree) =>
    match c.grammar.parse arguments with
    | .error why => stop tree progress c.title why
    | .ok p =>
      let m := { m with tree }
      match if p.has verboseOption then m.configure root (some verboseLevel) else .ok (root, tree) with
      | .error e => { ending := .escaped e, tree, progress }
      | .ok (root, tree) => runCommand { m with tree } root progress c p

def run (m : Log.Machine) (progress : Progress) (arguments : List String) : Execution :=
  match m.configure {} with
  | .error e => { ending := .escaped e, tree := m.tree, progress }
  | .ok (_, tree) =>
    match splitCommand arguments with
    | .error why => stop tree progress Command.programName why
    | .ok (c, rest) => runDirect m progress c rest

end SeedScript.Cli
