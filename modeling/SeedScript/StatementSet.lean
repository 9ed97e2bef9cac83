import SeedScript.Identifier
import SeedScript.Json.Printer

/-!
# Statement sets

The statements that seed one table, with the identifiers of its rows, and the two texts that are
made of them: the script, and the export that a run for banks reads.
-/

namespace SeedScript

structure StatementSet where
  table : String
  ddl : List String := []
  insert : Option String := none
  identifiers : List Identifier := []
deriving DecidableEq

namespace StatementSet

def statements (s : StatementSet) : List String :=
  s.ddl ++ s.insert.toList

def rowCount (s : StatementSet) : Nat :=
  s.identifiers.length

def separator : String := ";\n\n"

/-- The statements without the white space around them, each closed by a semicolon. -/
def script (s : StatementSet) : String :=
  if s.statements.isEmpty then ""
  else Text.join separator (s.statements.map Text.strip) ++ ";\n"

/-- The member of a bank dataset that holds its entries. -/
def identifiersKey : String := "identifiers"

def exported (s : StatementSet) : Json :=
  .object [(some identifiersKey, .array (s.identifiers.map fun i => .string (some i.text)))]

def exportText (s : StatementSet) : String :=
  s.exported.indented ++ "\n"

end StatementSet
end SeedScript
