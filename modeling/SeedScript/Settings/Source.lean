import SeedScript.Error
import SeedScript.Files.Tree
import SeedScript.Settings.Assignment
import SeedScript.Settings.Basic

/-!
# Where settings come from

The settings file stands at the root of the project unless a variable names another one. There
need not be one. A file that is not a text is an error of its own, and no fault of a setting.
-/

namespace SeedScript.Settings

open Files

def homePath (environment : Environment) (tilde : String) : Except Error Path :=
  match tilde, environment.get? "HOME" with
  | "~", some home =>
    let home := String.ofList (Text.dropEndWhile (· = '/') home.toList)
    .ok (Path.ofText (if home.isEmpty then "/" else home))
  | _, _ => .error .homeUnknown

/-- A path in which a tilde at the head is replaced by the home directory. -/
def expandHome (environment : Environment) (p : Path) : Except Error Path :=
  match p.isAbsolute, p.parts with
  | false, part :: parts =>
    if part.toList.head? = some '~' then
      (homePath environment part).map fun home => { home with parts := home.parts ++ parts }
    else .ok p
  | _, _ => .ok p

def filePath (project : Path) (environment : Environment) : Except Error Path :=
  match environment.get? "FINPAY_SEED_ENV_FILE" with
  | none | some "" => .ok (project ++ Path.ofText ".env")
  | some given => (expandHome environment (Path.ofText given)).map (project ++ ·)

def readFile (tree : Tree) (p : Path) : Except Error Environment :=
  match tree.locate p, tree.read? p with
  | .error .nameTooLong, _ => .error (.nameTooLong p.text)
  | _, none => .ok []
  | _, some bytes =>
    match Text.Utf8.decode bytes with
    | .ok cs => .ok (assignments (Text.unifyLineEnds cs))
    | .error fault => .error (.settingsUndecodable fault)

def load (environment : Environment) (file : Path) (tree : Tree) : Except Error Settings :=
  (readFile tree file).bind fun assigned =>
    (ofSources ⟨environment, assigned⟩).mapError fun problems => .ofProblem (.settings problems)

end SeedScript.Settings
