import SeedScript.Text.Join

/-!
# SQL names

A name of lower case letters, digits and underscores that does not start with a digit is written
bare; every other name is written between double quotes, with each double quote inside doubled.
One line feed after a bare name does not keep it from being written bare.
-/

namespace SeedScript.Sql

def isNameStart (c : Char) : Bool :=
  ('a' ≤ c && c ≤ 'z') || c == '_'

def isNamePart (c : Char) : Bool :=
  isNameStart c || ('0' ≤ c && c ≤ '9')

def isBareTail : List Char → Bool
  | [] => true
  | ['\n'] => true
  | c :: cs => isNamePart c && isBareTail cs

def isBareName (name : String) : Bool :=
  match name.toList with
  | [] => false
  | c :: cs => isNameStart c && isBareTail cs

def delimitName (name : String) : String :=
  "\"" ++ Text.substitute '"' "\"\"" name ++ "\""

/-- A name as statements write it; `force` asks for the quotes in every case. -/
def quoteName (name : String) (force : Bool := false) : String :=
  if !force && isBareName name then name else delimitName name

end SeedScript.Sql
