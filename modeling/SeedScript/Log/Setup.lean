import SeedScript.Log.Level
import SeedScript.Log.Root
import SeedScript.Settings.Source

/-!
# Setting up logging

What the environment says about logging: the level, whether there is a journal, and in which
directory. The journal of a day is made, empty, when logging is configured.
-/

namespace SeedScript.Log

open Files (Path Tree)

/-- What a run sees of the machine it runs on. -/
structure Machine where
  environment : Environment
  settingsFile : Path
  day : String
  timestamp : String
  tree : Tree

namespace Machine

def settings (m : Machine) : Except Error Settings :=
  Settings.load m.environment m.settingsFile m.tree

def level (m : Machine) : Meaning :=
  .ofWord (levelWord m.environment m.settings)

def keepsJournal (m : Machine) : Bool :=
  ["1", "true", "yes"].contains (Text.lowerCase ((m.environment.get? "LOG_TO_FILE").getD ""))

def journalDirectory (m : Machine) : Path :=
  .ofText ((m.environment.get? "LOG_FILE_DIR").getD "logs")

def journal (m : Machine) : Path :=
  m.journalDirectory ++ { parts := ["finpay-seed-" ++ m.day ++ ".log"] }

def makeJournal (m : Machine) : Except Error Tree := do
  let tree ← (m.tree.makeDirectories m.journalDirectory).mapError .logDirectory
  (tree.openEnd m.journal).mapError .logFile

/-- The root at the given level, or else at the level of the settings, and the tree that goes with
it. -/
def configure (m : Machine) (r : Root) (level : Option Int := none) : Except Error (Root × Tree) := do
  let level ← match level with
    | some n => pure n
    | none => m.level.toLevel
  if m.keepsJournal then
    let tree ← m.makeJournal
    pure (r.configure level (some m.journal), tree)
  else
    pure (r.configure level none, m.tree)

end Machine
end SeedScript.Log
