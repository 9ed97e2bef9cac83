import SeedScript.Text.Join

/-!
# Validation problems

What is wrong with a value that was offered for a record or for the settings, and where. All
problems of a value are reported together, in the order of the fields.
-/

namespace SeedScript

namespace Validation

inductive Fault where
  | missing
  | notText
  | notUnicode
  | tooShort
  | notRecord (record : String)
  | frozen
  | notBoolean
  | notInteger
  | integerTooLong
deriving DecidableEq, Repr

namespace Fault

/-- The word that programs tell a fault by. -/
def code : Fault → String
  | missing => "missing"
  | notText => "string_type"
  | notUnicode => "string_unicode"
  | tooShort => "string_too_short"
  | notRecord _ => "model_type"
  | frozen => "frozen_instance"
  | notBoolean => "bool_parsing"
  | notInteger => "int_parsing"
  | integerTooLong => "int_parsing_size"

def message : Fault → String
  | missing => "Field required"
  | notText => "Input should be a valid string"
  | notUnicode => "Input should be a valid string, unable to parse raw data as a unicode string"
  | tooShort => "String should have at least 1 character"
  | notRecord record => "Input should be a valid dictionary or instance of " ++ record
  | frozen => "Instance is frozen"
  | notBoolean => "Input should be a valid boolean, unable to interpret input"
  | notInteger => "Input should be a valid integer, unable to parse string as an integer"
  | integerTooLong => "Unable to parse input string as an integer, exceeded maximum size"

end Fault

/-- A fault of the value at a location; the whole value has the empty location. -/
structure Problem where
  location : List String
  fault : Fault
deriving DecidableEq, Repr

namespace Problem

def describe (whole : String) (p : Problem) : String :=
  (if p.location.isEmpty then whole else Text.join "." p.location) ++ ": " ++ p.fault.message

end Problem

/-- One line on all problems; `whole` is what the value itself is called. -/
def describe (whole : String) (problems : List Problem) : String :=
  Text.join "; " (problems.map (Problem.describe whole))

end Validation
end SeedScript
