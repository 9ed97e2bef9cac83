import SeedScript.Files.Tree
import SeedScript.Schema.Registry
import SeedScript.Sql.Insert

/-!
# Errors

Everything that can stop an operation. A failure is what runs report; the other errors are
refused requests of the parts, and limits that no stage translates.
-/

namespace SeedScript

inductive Error where
  | failure (f : Failure)
  | registry (e : Schema.RegistryError)
  | insert (e : Sql.InsertError)
  | unknownColumnType (word : String)
  | unknownStage (word : String)
  | countMismatch (countries identifiers : Nat)
  | integerTooLong (digits : Nat)
  | nestingTooDeep (container : Json.Kind)
  | settingsUndecodable (fault : Text.Utf8.Fault)
  /-- The level name stands for a text or a table, and not for a level. -/
  | levelNotNumber (shown : String) (isText : Bool)
  | logDirectory (fault : Files.Tree.DirectoryFault)
  | logFile (fault : Files.Tree.OpenFault)
  | homeUnknown
  /-- The path of a file to be read has a name that no entry can have, because it is too long. -/
  | nameTooLong (path : String)
  /-- The name of a file to be written holds the character NUL. -/
  | nullInName
deriving DecidableEq

namespace Error

def type : Error → String
  | failure f => f.problem.type
  | registry (.notFound _ _) | insert (.missingColumns _) => "KeyError"
  | registry _ | insert _ | unknownColumnType _ | unknownStage _ | countMismatch _ _
  | integerTooLong _ | nullInName => "ValueError"
  | nestingTooDeep _ => "RecursionError"
  | settingsUndecodable _ => "UnicodeDecodeError"
  | levelNotNumber _ isText => if isText then "ValueError" else "TypeError"
  | logDirectory (.fileInPlace _) => "FileExistsError"
  | logDirectory (.fileOnTheWay _) => "NotADirectoryError"
  | logFile (.isDirectory _) => "IsADirectoryError"
  | logDirectory (.nameTooLong _) | logFile (.nameTooLong _) | nameTooLong _ => "OSError"
  | homeUnknown => "RuntimeError"

def message : Error → String
  | failure f => f.message
  | registry e => e.message
  | insert e => e.message
  | unknownColumnType word => Text.quoted word ++ " is not a valid ColumnType"
  | unknownStage word => Text.quoted word ++ " is not a valid SeedStage"
  | countMismatch countries identifiers =>
    "Got " ++ toString countries ++ " countries but " ++ toString identifiers ++ " identifiers"
  | integerTooLong digits =>
    "Exceeds the limit (4300 digits) for integer string conversion: value has " ++
      toString digits ++ " digits; use sys.set_int_max_str_digits() to increase the limit"
  | nestingTooDeep container =>
    "maximum recursion depth exceeded while decoding a JSON " ++
      (match container with
        | .array => "array"
        | _ => "object") ++ " from a unicode string"
  | settingsUndecodable fault => fault.message
  | levelNotNumber shown isText =>
    (if isText then "Unknown level: " else "Level not an integer or a valid string: ") ++ shown
  | logDirectory (.fileInPlace path) => "[Errno 17] File exists: " ++ Text.quoted path
  | logDirectory (.fileOnTheWay path) => "[Errno 20] Not a directory: " ++ Text.quoted path
  | logFile (.isDirectory path) => "[Errno 21] Is a directory: " ++ Text.quoted path
  | logDirectory (.nameTooLong path) | logFile (.nameTooLong path) | nameTooLong path =>
    "[Errno 36] File name too long: " ++ Text.quoted path
  | homeUnknown => "Could not determine home directory."
  | nullInName => "embedded null byte"

instance : Coe Failure Error := ⟨failure⟩

def ofProblem (problem : Problem) (path : Option String := none) (index : Option Nat := none) :
    Error :=
  failure ⟨problem, path, index⟩

end Error

def liftError {ε α : Type} (embed : ε → Error) : Except ε α → Except Error α :=
  Except.mapError embed

end SeedScript
