import SeedScript.Text.Join
import SeedScript.Text.Printable

/-!
# Quoted display

How a message shows a text: between quotes, with every character that would not be seen escaped.
The single quote is used unless the text has one and has no double quote.
-/

namespace SeedScript.Text

def hexDigit (n : Nat) : Char :=
  if n < 10 then Char.ofNat (48 + n) else Char.ofNat (87 + n)

def hexDigits : Nat → Nat → List Char
  | 0, _ => []
  | width + 1, n => hexDigits width (n / 16) ++ [hexDigit (n % 16)]

def quotedChar (quote c : Char) : List Char :=
  if c = quote || c = '\\' then ['\\', c]
  else if c = '\n' then ['\\', 'n']
  else if c = '\r' then ['\\', 'r']
  else if c = '\t' then ['\\', 't']
  else if isPrintable c then [c]
  else if c.toNat < 0x100 then ['\\', 'x'] ++ hexDigits 2 c.toNat
  else if c.toNat < 0x10000 then ['\\', 'u'] ++ hexDigits 4 c.toNat
  else ['\\', 'U'] ++ hexDigits 8 c.toNat

def quoteFor (s : String) : Char :=
  if s.toList.contains '\'' && !s.toList.contains '"' then '"' else '\''

/-- A text as a message shows it. -/
def quoted (s : String) : String :=
  let quote := quoteFor s
  String.ofList ([quote] ++ s.toList.flatMap (quotedChar quote) ++ [quote])

def quotedList (xs : List String) : String :=
  "[" ++ join ", " (xs.map quoted) ++ "]"

end SeedScript.Text
