/-!
# JSON values

The values of a dataset. A string is kept as a text where it is one: an escape can name half of a
surrogate pair, and a string with such an escape denotes no text.
-/

namespace SeedScript

inductive Json where
  | null
  | boolean (b : Bool)
  | integer (n : Int)
  /-- A number with a fraction or an exponent, or one that is not finite, as it is written. -/
  | real (numeral : String)
  | string (text : Option String)
  | array (items : List Json)
  | object (members : List (Option String × Json))
deriving Inhabited

namespace Json

inductive Kind where
  | null
  | boolean
  | integer
  | real
  | string
  | array
  | object
deriving DecidableEq, Repr

def kind : Json → Kind
  | null => .null
  | boolean _ => .boolean
  | integer _ => .integer
  | real _ => .real
  | string _ => .string
  | array _ => .array
  | object _ => .object

def Kind.word : Kind → String
  | null => "NoneType"
  | boolean => "bool"
  | integer => "int"
  | real => "float"
  | string => "str"
  | array => "list"
  | object => "dict"

abbrev Members := List (Option String × Json)

/-- The value of a member; of several members with one name the last counts. -/
def Members.get? (members : Members) (name : String) : Option Json :=
  members.reverse.lookup (some name)

def Members.has (members : Members) (name : String) : Bool :=
  (members.get? name).isSome

end Json
end SeedScript
