import SeedScript.Text.LowerCase

/-!
# Environments

Named texts, from the process environment or from a settings file. Programs look a variable up by
its exact name; settings are found in any letter case, and of several spellings the last counts.
-/

namespace SeedScript

abbrev Environment := List (String × String)

namespace Environment

def get? (e : Environment) (name : String) : Option String :=
  e.lookup name

/-- Sets a variable: in its place if it is there, and otherwise at the end. -/
def set (e : Environment) (name value : String) : Environment :=
  match e with
  | [] => [(name, value)]
  | (n, v) :: rest => if n = name then (n, value) :: rest else (n, v) :: set rest name value

/-- The last variable of this name in any letter case. -/
def setting? (e : Environment) (name : String) : Option String :=
  (e.reverse.find? fun v => Text.equalsIgnoringCase v.1 name).map Prod.snd

end Environment
end SeedScript
