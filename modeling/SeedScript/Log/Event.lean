import SeedScript.Json.Basic

/-!
# Log events

What a run reports while it goes on. An event has a name, a severity, the logger it comes from and
fields; its record is an object with all of them.
-/

namespace SeedScript.Log

inductive Severity where
  | debug
  | info
  | warning
  | error
  | critical
deriving DecidableEq, Repr

namespace Severity

/-- Events pass a threshold that is not above the level of their severity. -/
def level : Severity → Int
  | debug => 10
  | info => 20
  | warning => 30
  | error => 40
  | critical => 50

def word : Severity → String
  | debug => "debug"
  | info => "info"
  | warning => "warning"
  | error => "error"
  | critical => "critical"

def ofWord? : String → Option Severity
  | "debug" => some debug
  | "info" => some info
  | "warning" => some warning
  | "error" => some error
  | "critical" => some critical
  | _ => none

theorem ofWord?_word (s : Severity) : ofWord? s.word = some s := by cases s <;> rfl

end Severity

abbrev Fields := List (String × Json)

namespace Fields

/-- Sets a field: in its place if it is there, and otherwise at the end. -/
def set (fields : Fields) (name : String) (value : Json) : Fields :=
  match fields with
  | [] => [(name, value)]
  | (n, v) :: rest => if n = name then (n, value) :: rest else (n, v) :: set rest name value

def update (fields more : Fields) : Fields :=
  more.foldl (fun fs f => fs.set f.1 f.2) fields

/-- Names of fields that ask for the present exception or the call stack. -/
def requests : List String := ["exc_info", "stack_info"]

/-- The fields without such requests, for which nothing is written. -/
def answered (fields : Fields) : Fields :=
  fields.filter fun f => !requests.contains f.1

end Fields

structure Event where
  name : String
  severity : Severity
  logger : String
  fields : Fields := []

namespace Event

def text (s : String) : Json := .string (some s)

def count (n : Nat) : Json := .integer n

/-- The object that is written for an event. The event's own keys win over fields of these names. -/
def record (e : Event) (timestamp : String) : Json :=
  .object <| (e.fields.answered.update [("event", text e.name), ("level", text e.severity.word),
    ("logger", text e.logger), ("timestamp", text timestamp)]).map fun f => (some f.1, f.2)

end Event

structure Logger where
  name : String
  context : Fields := []

namespace Logger

/-- The name of loggers that are made for their context. -/
def contextName : String := "finpay_seed.utils.logging"

def ofContext (context : Fields) : Logger :=
  ⟨contextName, context⟩

/-- An event of the logger; the fields of the event win over the context. -/
def event (l : Logger) (severity : Severity) (name : String) (fields : Fields := []) : Event :=
  { name, severity, logger := l.name, fields := l.context.update fields }

end Logger
end SeedScript.Log
