import SeedScript.Json.Basic
import SeedScript.Text.Join
import SeedScript.Text.Quoted

/-!
# Printing JSON

Two layouts: all on one line, and indented by two blanks for each container around. A string is
printed as it is but for the quote, the backslash and the controls.
-/

namespace SeedScript.Json

def printChar (c : Char) : List Char :=
  match c with
  | '"' => ['\\', '"']
  | '\\' => ['\\', '\\']
  | '\n' => ['\\', 'n']
  | '\r' => ['\\', 'r']
  | '\t' => ['\\', 't']
  | '\x08' => ['\\', 'b']
  | '\x0c' => ['\\', 'f']
  | c => if c.toNat < 0x20 then ['\\', 'u'] ++ Text.hexDigits 4 c.toNat else [c]

def printString (s : String) : String :=
  String.ofList ('"' :: s.toList.flatMap printChar ++ ['"'])

/-- The text between the parts of a container: where each part starts and where it ends. -/
structure Layout where
  opening : Nat → String
  separator : Nat → String
  closing : Nat → String

namespace Layout

def lineBreak (depth : Nat) : String :=
  String.ofList ('\n' :: List.replicate (2 * depth) ' ')

def oneLine : Layout where
  opening _ := ""
  separator _ := ", "
  closing _ := ""

def indented : Layout where
  opening depth := lineBreak (depth + 1)
  separator depth := "," ++ lineBreak (depth + 1)
  closing depth := lineBreak depth

def enclose (l : Layout) (depth : Nat) (left right : String) (parts : List String) : String :=
  if parts.isEmpty then left ++ right
  else left ++ l.opening depth ++ Text.join (l.separator depth) parts ++ l.closing depth ++ right

end Layout

mutual

def print (l : Layout) (depth : Nat) : Json → String
  | .null => "null"
  | .boolean b => if b then "true" else "false"
  | .integer n => toString n
  | .real numeral => numeral
  | .string text => printString (text.getD "")
  | .array items => l.enclose depth "[" "]" (printItems l (depth + 1) items)
  | .object members => l.enclose depth "\x7b" "\x7d" (printMembers l (depth + 1) members)

def printItems (l : Layout) (depth : Nat) : List Json → List String
  | [] => []
  | item :: items => print l depth item :: printItems l depth items

def printMembers (l : Layout) (depth : Nat) : List (Option String × Json) → List String
  | [] => []
  | (name, value) :: members =>
    (printString (name.getD "") ++ ": " ++ print l depth value) :: printMembers l depth members

end

def oneLine (value : Json) : String :=
  print .oneLine 0 value

def indented (value : Json) : String :=
  print .indented 0 value

end SeedScript.Json
