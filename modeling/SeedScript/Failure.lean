import SeedScript.Identifier
import SeedScript.Json.Reader
import SeedScript.Text.Utf8
import SeedScript.Validation

/-!
# Failures

A run can fail in one of four stages. A failure says what the problem is, and where: in which
file, at which record. What an operator and the log see of it is its report.
-/

namespace SeedScript

inductive Stage where
  | config
  | load
  | compile
  | write
deriving DecidableEq, Repr

namespace Stage

def word : Stage → String
  | config => "config"
  | load => "load"
  | compile => "compile"
  | write => "write"

def ofWord? : String → Option Stage
  | "config" => some config
  | "load" => some load
  | "compile" => some compile
  | "write" => some write
  | _ => none

theorem ofWord?_word (s : Stage) : ofWord? s.word = some s := by cases s <;> rfl

end Stage

/-- What an operator sees of a failure: the name of its class, the stage, and the text with the
place it is about. -/
structure Report where
  type : String
  text : String
  stage : Stage
  path : Option String := none
  index : Option Int := none
  cause : Option String := none
deriving DecidableEq, Repr

namespace Report

/-- The place: the path unless it is empty, and the index. -/
def context (r : Report) : List String :=
  (match r.path with
    | none => []
    | some p => if p.isEmpty then [] else ["path='" ++ p ++ "'"]) ++
  (match r.index with
    | none => []
    | some n => ["index=" ++ toString n])

def message (r : Report) : String :=
  if r.context.isEmpty then r.text else r.text ++ " (" ++ Text.join ", " r.context ++ ")"

end Report

inductive WriteFault where
  | missingParent (parent : String)
  | nameTooLong (path : String)
  /-- The new file could not be moved into place, because the path is too long. -/
  | pathTooLong (temporary target : String)
  /-- The new file could not be moved into place, because a directory is there. -/
  | isDirectory (temporary target : String)
  /-- The new file could not be moved into place, because the path names no entry of its parent. -/
  | busy (temporary target : String)
deriving DecidableEq, Repr

namespace WriteFault

def message : WriteFault → String
  | missingParent parent => "Parent directory does not exist: " ++ parent
  | nameTooLong path => "[Errno 36] File name too long: " ++ Text.quoted path
  | pathTooLong temporary target =>
    "[Errno 36] File name too long: " ++ Text.quoted temporary ++ " -> " ++ Text.quoted target
  | isDirectory temporary target =>
    "[Errno 21] Is a directory: " ++ Text.quoted temporary ++ " -> " ++ Text.quoted target
  | busy temporary target =>
    "[Errno 16] Device or resource busy: " ++ Text.quoted temporary ++ " -> " ++ Text.quoted target

def type : WriteFault → String
  | missingParent _ => "FileNotFoundError"
  | isDirectory _ _ => "IsADirectoryError"
  | busy _ _ | nameTooLong _ | pathTooLong _ _ => "OSError"

end WriteFault

inductive Unresolved where
  /-- It is not an identifier, and there are no names to compare it with. -/
  | nothingToLookUp
  /-- It is an identifier of no country of this run. -/
  | foreignIdentifier
  | unknownName
deriving DecidableEq, Repr

inductive Problem where
  | settings (problems : List Validation.Problem)
  | datasetMissing
  | malformed (mistake : Json.Mistake) (position : Text.Position)
  | undecodable (fault : Text.Utf8.Fault)
  | notAnArray (found : Json.Kind)
  | noIdentifiers
  | countryNotObject (found : Json.Kind)
  | bankNotEntry (found : Json.Kind)
  | emptyDiscriminator
  | invalidCountry (problems : List Validation.Problem)
  | invalidBank (problems : List Validation.Problem)
  | unresolved (discriminator : String) (why : Unresolved)
  | repeatedIdentifier (i : Identifier)
  | scriptUnwritable (fault : WriteFault)
  | exportUnwritable (fault : WriteFault)
deriving DecidableEq

namespace Problem

def stage : Problem → Stage
  | settings _ => .config
  | datasetMissing | malformed _ _ | undecodable _ | notAnArray _ | noIdentifiers
  | countryNotObject _ | bankNotEntry _ | emptyDiscriminator | invalidCountry _
  | invalidBank _ => .load
  | unresolved _ _ | repeatedIdentifier _ => .compile
  | scriptUnwritable _ | exportUnwritable _ => .write

def type : Problem → String
  | settings _ => "ConfigurationError"
  | repeatedIdentifier _ => "SeedError"
  | scriptUnwritable _ | exportUnwritable _ => "ScriptIoError"
  | _ => "DatasetError"

def text : Problem → String
  | settings problems => "Invalid settings: " ++ Validation.describe "" problems
  | datasetMissing => "Dataset file not found"
  | malformed mistake position =>
    "Invalid JSON at line " ++ toString position.line ++ " column " ++ toString position.column ++
      ": " ++ mistake.message
  | undecodable fault => "Failed to read dataset: " ++ fault.message
  | notAnArray found => "Country dataset must be a JSON array, got " ++ found.word
  | noIdentifiers => "Bank dataset must be an object with an 'identifiers' array"
  | countryNotObject found => "Country entry must be an object, got " ++ found.word
  | bankNotEntry found => "Bank entry must be a string or object, got " ++ found.word
  | emptyDiscriminator => "Empty country discriminator"
  | invalidCountry problems => "Invalid country entry: " ++ Validation.describe "<record>" problems
  | invalidBank problems => "Invalid bank entry: " ++ Validation.describe "<record>" problems
  | unresolved discriminator why =>
    "Country '" ++ discriminator ++ "' " ++
      match why with
      | .nothingToLookUp => "is not an identifier and no countries were compiled to look it up in"
      | .foreignIdentifier => "is not an identifier compiled in this run"
      | .unknownName => "does not match any compiled country"
  | repeatedIdentifier i => "Identifier " ++ i.text ++ " issued twice in one batch"
  | scriptUnwritable fault => "Failed to write seed script: " ++ fault.message
  | exportUnwritable fault => "Failed to write country identifiers: " ++ fault.message

def cause : Problem → Option String
  | settings _ | invalidCountry _ | invalidBank _ => some "ValidationError"
  | malformed _ _ => some "JSONDecodeError"
  | undecodable _ => some "UnicodeDecodeError"
  | scriptUnwritable fault | exportUnwritable fault => some fault.type
  | _ => none

end Problem

structure Failure where
  problem : Problem
  path : Option String := none
  index : Option Nat := none
deriving DecidableEq

namespace Failure

def stage (f : Failure) : Stage :=
  f.problem.stage

def report (f : Failure) : Report where
  type := f.problem.type
  text := f.problem.text
  stage := f.stage
  path := f.path
  index := f.index.map Int.ofNat
  cause := f.problem.cause

def message (f : Failure) : String :=
  f.report.message

end Failure
end SeedScript
