import SeedScript.Error
import SeedScript.Record
import SeedScript.Text.CaseFold

/-!
# Resolving discriminators

A bank names its country by an identifier or by a name. Names are compared by their keys, in which
neither case nor the amount of white space counts, and the first country of a name is meant. With
no countries to look in, only identifiers are understood. With countries, an identifier has to be
theirs, unless identifiers of earlier runs stay valid.
-/

namespace SeedScript

/-- What two spellings of one name have in common. -/
def nameKey (name : String) : String :=
  Text.caseFold (Text.join " " (Text.words name))

abbrev NameIndex := List (String × Identifier)

namespace NameIndex

/-- Adds an entry unless its key is there. -/
def add (index : NameIndex) (key : String) (i : Identifier) : NameIndex :=
  if (index.lookup key).isSome then index else index ++ [(key, i)]

def ofPairs (pairs : List (String × Identifier)) : NameIndex :=
  pairs.foldl (fun index pair => index.add pair.1 pair.2) []

end NameIndex

structure Resolver where
  hasCountries : Bool := false
  known : List Identifier := []
  byName : NameIndex := []
  /-- Whether identifiers of earlier runs stay valid. -/
  keepPrior : Bool := false

namespace Resolver

def ofCountries (records : List CountryRecord) (identifiers : List Identifier)
    (keepPrior : Bool := false) : Except Error Resolver :=
  if records.length = identifiers.length then
    .ok {
      hasCountries := !records.isEmpty
      known := identifiers
      byName := .ofPairs (List.zip (records.map fun r => nameKey r.countryName) identifiers)
      keepPrior }
  else .error (.countMismatch records.length identifiers.length)

/-- The identifier that a discriminator names, or why it names none. -/
def find (r : Resolver) (discriminator : String) : Except Unresolved Identifier :=
  match Identifier.parse? discriminator with
  | some i =>
    if !r.hasCountries || r.keepPrior || r.known.contains i then .ok i
    else .error .foreignIdentifier
  | none =>
    if r.hasCountries then
      match r.byName.lookup (nameKey discriminator) with
      | some i => .ok i
      | none => .error .unknownName
    else .error .nothingToLookUp

def resolve (r : Resolver) (discriminator : String) (index : Option Nat := none) :
    Except Error Identifier :=
  (r.find discriminator).mapError fun why =>
    .ofProblem (.unresolved discriminator why) none index

def resolveFrom (r : Resolver) (start : Nat) : List String → Except Error (List Identifier)
  | [] => .ok []
  | d :: ds =>
    match r.resolve d (some start) with
    | .error e => .error e
    | .ok i => (r.resolveFrom (start + 1) ds).map (i :: ·)

/-- Resolves discriminators in order; the first that cannot be resolved decides the error. -/
def resolveAll (r : Resolver) (discriminators : List String) : Except Error (List Identifier) :=
  r.resolveFrom 0 discriminators

end Resolver
end SeedScript
