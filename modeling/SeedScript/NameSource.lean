import SeedScript.Progress

/-!
# Names for banks

Banks that a dataset does not name are named by a source: a given sequence of names, or the company
names of the run, each with a suffix.
-/

namespace SeedScript

inductive NameSource where
  | given (names : Supply String)
  | companies (suffix : String)

namespace NameSource

def defaultSuffix : String := " Bank"

def defaultLocale : String := "en_US"

def generator (locale : String := defaultLocale) (seed : Option Seed := none)
    (suffix : String := defaultSuffix) : RunStep NameSource := do
  RunStep.addGenerator ⟨locale, seed⟩
  pure (.companies suffix)

def name (s : NameSource) (p : Progress) (n : Nat) : String :=
  match s with
  | given names => names.get n
  | companies suffix => p.companies.get n ++ suffix

def draw (s : NameSource) (n : Nat) (p : Progress) : Progress :=
  match s with
  | given _ => p
  | companies _ => { p with companies := p.companies.drop n }

def take (s : NameSource) (n : Nat) : RunStep (List String) := fun p =>
  (.ok ((List.range n).map (s.name p)), s.draw n p)

end NameSource
end SeedScript
