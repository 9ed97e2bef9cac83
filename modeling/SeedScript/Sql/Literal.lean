import SeedScript.Decimal.Display
import SeedScript.Identifier

/-!
# SQL literals

Every cell of a row is written as a text literal: its display between single quotes, with each
quote inside doubled. Nothing else is escaped, so a backslash is an ordinary character. The text of
an identifier has no quotes and goes in as it is.
-/

namespace SeedScript.Sql

def escape (text : String) : String :=
  Text.substitute '\'' "\'\'" text

def quoteLiteral (text : String) : String :=
  "\'" ++ escape text ++ "\'"

inductive Cell where
  | null
  | text (s : String)
  | identifier (i : Identifier)
  | integer (n : Int)
  | boolean (b : Bool)
  | real (x : Decimal.Binary64)

namespace Cell

/-- The text that a literal of the cell holds; a missing value is the empty text. An integer has all of its
digits here. The limit of 4300 digits on the texts of integers, past which there is none and an error, is not
part of a cell. -/
def display : Cell → String
  | null => ""
  | text s => s
  | identifier i => i.text
  | integer n => toString n
  | boolean true => "True"
  | boolean false => "False"
  | real x => x.display

def literal : Cell → String
  | identifier i => "\'" ++ i.text ++ "\'"
  | c => quoteLiteral c.display

end Cell
end SeedScript.Sql
