import SeedScript.Files.Tree
import SeedScript.NameSource
import SeedScript.Record
import SeedScript.StatementSet

/-!
# Datasets

A dataset of countries is an array of objects. A dataset of banks is an object whose member
`identifiers` is an array; an entry of it is an object, or a text that names the country of a bank
without a name. A dataset is read as a whole or not at all: the first bad entry stops it.
-/

namespace SeedScript

open Files (Path Tree)

namespace Dataset

/-- The value in the file at a path. The limits on integers, nesting and names are no
dataset failures. -/
def readJson (tree : Tree) (path : String) : Except Error Json :=
  let p := Path.ofText path
  match tree.locate p, tree.read? p with
  | .error .nameTooLong, _ => .error (.nameTooLong p.text)
  | _, none => .error (.ofProblem .datasetMissing p.text)
  | _, some bytes =>
    match Text.Utf8.decode bytes with
    | .error fault => .error (.ofProblem (.undecodable fault) p.text)
    | .ok cs =>
      let cs := Text.unifyLineEnds cs
      match Json.read cs with
      | .ok value => .ok value
      | .error (.malformed mistake rest) =>
        .error (.ofProblem (.malformed mistake (.of cs rest)) p.text)
      | .error (.integerTooLong digits) => .error (.integerTooLong digits)
      | .error (.nestingTooDeep container) => .error (.nestingTooDeep container)

def country : Json → Except Problem CountryRecord
  | .object members => (CountryRecord.ofMembers members).mapError .invalidCountry
  | other => .error (.countryNotObject other.kind)

/-- The records of entries from position `index` on; the first bad entry decides the problem. -/
def countriesFrom (index : Nat) : List Json → Except (Nat × Problem) (List CountryRecord)
  | [] => .ok []
  | entry :: entries =>
    match country entry with
    | .error problem => .error (index, problem)
    | .ok record => (countriesFrom (index + 1) entries).map (record :: ·)

/-- Whether a value is a text of white space. A text with half a surrogate pair is not. -/
def isBlank : Json → Bool
  | .string (some s) => Text.isBlankText s
  | _ => false

def needsName (entry : Json) : Bool :=
  entry.kind = .string && !isBlank entry

def bank (name : String) (entry : Json) : Except Problem BankRecord :=
  match entry with
  | .string _ =>
    if isBlank entry then .error .emptyDiscriminator
    else (BankRecord.ofMembers [(some "bank_name", .string (some name)),
      (some "country_discriminator", entry)]).mapError .invalidBank
  | .object members => (BankRecord.ofMembers members).mapError .invalidBank
  | other => .error (.bankNotEntry other.kind)

/-- The records of entries from position `index` on, when `drawn` names are used up, and how many
are in the end. -/
def banksFrom (names : Nat → String) (index drawn : Nat) :
    List Json → Except (Nat × Problem) (List BankRecord) × Nat
  | [] => (.ok [], drawn)
  | entry :: entries =>
    let after := if needsName entry then drawn + 1 else drawn
    match bank (names drawn) entry with
    | .error problem => (.error (index, problem), after)
    | .ok record =>
      let (rest, last) := banksFrom names (index + 1) after entries
      (rest.map (record :: ·), last)

def atEntry {α : Type} (path : String) (r : Except (Nat × Problem) α) : Except Error α :=
  r.mapError fun (index, problem) => .ofProblem problem path index

def entries? (value : Json) : Option (List Json) :=
  match value with
  | .object members =>
    match Json.Members.get? members StatementSet.identifiersKey with
    | some (.array entries) => some entries
    | _ => none
  | _ => none

def loaded (dataset path : String) (records : Nat) : Log.Event where
  name := "dataset_loaded"
  severity := .info
  logger := "finpay_seed.io.loader.dataset_loader"
  fields := [("dataset", Log.Event.text dataset), ("path", Log.Event.text path),
    ("records", Log.Event.count records)]

open RunStep

def loadCountries (tree : Tree) (path : String) : RunStep (List CountryRecord) := do
  match ← ofResult (readJson tree path) with
  | .array entries =>
    let records ← ofResult (atEntry path (countriesFrom 0 entries))
    report (loaded "countries" path records.length)
    pure records
  | other => ofResult (.error (.ofProblem (.notAnArray other.kind) path))

/-- The source that names banks: the given one, or else one that is made if a name may be needed. -/
def sourceFor (source : Option NameSource) (entries : List Json) : RunStep NameSource :=
  match source with
  | some s => pure s
  | none =>
    if entries.any fun e => e.kind = .string then NameSource.generator
    else pure (.companies NameSource.defaultSuffix)

def nameBanks (path : String) (entries : List Json) (source : NameSource) :
    RunStep (List BankRecord) := fun p =>
  let (result, drawn) := banksFrom (source.name p) 0 0 entries
  (atEntry path result, source.draw drawn p)

def loadBanks (tree : Tree) (path : String) (source : Option NameSource := none) :
    RunStep (List BankRecord) := do
  let value ← ofResult (readJson tree path)
  match entries? value with
  | none => ofResult (.error (.ofProblem .noIdentifiers path))
  | some entries =>
    let source ← sourceFor source entries
    let records ← nameBanks path entries source
    report (loaded "banks" path records.length)
    pure records

end Dataset
end SeedScript
