/-!
# Lower case of ASCII words

Words that are compared with an ASCII word in lower case. The one letter outside ASCII whose
lower case is an ASCII letter is the Kelvin sign, so folding it and the capitals decides each
such comparison.
-/

namespace SeedScript.Text

/-- The lower case of a character, where that is in ASCII. -/
def lowerChar (c : Char) : Char :=
  if c = '\u212A' then 'k' else c.toLower

def lowerCase (s : String) : String :=
  String.ofList (s.toList.map lowerChar)

def equalsIgnoringCase (s t : String) : Bool :=
  lowerCase s == lowerCase t

end SeedScript.Text
