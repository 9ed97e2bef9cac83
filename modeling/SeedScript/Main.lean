import SeedScript.Cli.Reach
import SeedScript.Log.Calendar
import Std.Time.DateTime.Timestamp

/-!
# The program

Everything that a run depends on is read first: the environment, the time, random bits, and the
files within its reach. Then the run is a function, and what it has changed is written back.
-/

namespace SeedScript.Program

open Files (Entry Location Path Tree)

def placeText (l : Location) : String :=
  "/" ++ Text.join "/" l

def readEnvironment : IO Environment := do
  let bytes ← try IO.FS.readBinFile "/proc/self/environ" catch _ => pure ByteArray.empty
  let text := (String.fromUTF8? bytes).getD ""
  pure <| (Text.split '\x00' text).filterMap fun entry =>
    match Text.split '=' entry with
    | name :: value :: more => some (name, Text.join "=" (value :: more))
    | _ => none

def readEntry (l : Location) : IO (Option Entry) := do
  try
    let bytes ← IO.FS.readBinFile (placeText l)
    pure (some (.file bytes.toList))
  catch
    | .inappropriateType .. => pure (some .directory)
    | _ => pure none

/-- The entries on the way along a path from a place, up to the first that is missing. -/
def readAlong (l : Location) : List String → IO Files.Entries
  | [] => pure []
  | part :: parts => do
    let next := if part = ".." then l.dropLast else l ++ [part]
    match ← readEntry next with
    | some e => pure ((next, e) :: (← readAlong next parts))
    | none => pure []

def readTree (here : Location) (salt : String) (paths : List Path) : IO Tree := do
  let entries ← paths.mapM fun p => readAlong (if p.isAbsolute then [] else here) p.parts
  pure { Tree.ofEntries here entries.flatten with salt }

def writeChanges (before after : Tree) : IO Unit :=
  for (l, e) in after.changesSince before do
    match e with
    | some .directory => IO.FS.createDirAll (placeText l)
    | some (.file bytes) =>
      let temporary := placeText (l.dropLast ++ ["." ++ l.getLast?.getD "" ++ "." ++ after.salt ++ ".tmp"])
      IO.FS.writeBinFile temporary (ByteArray.mk bytes.toArray)
      IO.FS.rename temporary (placeText l)
    | none => IO.FS.removeFile (placeText l)

def natOfBytes (bytes : List UInt8) : Nat :=
  bytes.foldl (fun n b => 256 * n + b.toNat) 0

/-- A random identifier: 122 random bits, and the six bits that mark it as such. -/
def randomIdentifier : IO Identifier := do
  let n := natOfBytes (← IO.getRandomBytes 16).toList
  let low := n % Nat.pow 2 62 + Nat.pow 2 63
  let middle := n / Nat.pow 2 64 % Nat.pow 2 12 + 4 * Nat.pow 2 12
  let high := n / Nat.pow 2 80
  pure (.ofNat (high * Nat.pow 2 80 + middle * Nat.pow 2 64 + low))

def randomSalt : IO String := do
  pure <| String.ofList <| (← IO.getRandomBytes 8).toList.map fun b =>
    Char.ofNat ('a'.toNat + b.toNat % 26)

def familyNames : Array String := #[
  "Abel", "Brandt", "Costa", "Dietz", "Evans", "Fischer", "Grant", "Hayes", "Ivanov", "Jensen",
  "Kessler", "Lang", "Moreno", "Novak", "Olsen", "Price", "Quinn", "Reyes", "Sato", "Turner"]

/-- A company name of two family names, all different for the first 400. -/
def companyName (n : Nat) : String :=
  let name (i : Nat) := familyNames.getD (i % familyNames.size) ""
  name (7 * n + 3) ++ "-" ++ name (11 * n + 5 + n / familyNames.size)

def recordBound (t : Tree) : Nat :=
  t.entries.foldl (fun n e => match e.2 with
    | .file bytes => n + bytes.length
    | .directory => n) 0

def printNotice (m : Log.Machine) : Cli.Notice → IO Unit
  | .event e => IO.eprintln (e.record m.timestamp).oneLine
  | .text s => IO.eprint s

def run (arguments : List String) : IO UInt32 := do
  let here := (Path.ofText (← IO.currentDir).toString).parts
  let environment ← readEnvironment
  let now := (← Std.Time.Timestamp.now).val
  let seconds := now.second.val.toNat
  let salt ← randomSalt
  let file ← match Settings.filePath {} environment with
    | .ok p => pure p
    | .error e =>
      IO.eprintln (e.type ++ ": " ++ e.message)
      return 1
  let m : Log.Machine := {
    environment, settingsFile := file
    day := Log.dayText seconds
    timestamp := Log.stampText seconds (now.nano.val.toNat / 1000)
    tree := ← readTree here salt [file] }
  let companies : Supply String := { item := companyName }
  let paths := file :: Cli.reach m { identifiers := { item := .ofNat }, companies } arguments
  let before ← readTree here salt paths
  let drawn ← (List.replicate (recordBound before) ()).mapM fun _ => randomIdentifier
  let drawn := drawn.toArray
  let identifiers : Supply Identifier := { item := fun n => drawn.getD n (.ofNat n) }
  let x := Cli.run { m with tree := before } { identifiers, companies } arguments
  writeChanges before x.tree
  for n in x.notices do
    printNotice m n
  IO.print x.output
  match x.ending with
  | .exit code => pure code.toUInt32
  | .escaped e =>
    IO.eprintln (e.type ++ ": " ++ e.message)
    pure 1

end SeedScript.Program

def main (arguments : List String) : IO UInt32 :=
  SeedScript.Program.run arguments
