import SeedScript.Environment
import SeedScript.Files.Path
import SeedScript.Settings.Value
import SeedScript.Text.UpperCase

/-!
# Settings

What a run takes from the environment and from the settings file. The environment wins over the
file, and the file over the defaults.
-/

namespace SeedScript

structure Settings where
  logLevel : String := "INFO"
  seedDir : String := "seed"
  countriesDataset : String := "country.json"
  /-- The dataset of a run for banks alone. -/
  banksDataset : String := "country_identifier.json"
  /-- The dataset of banks in a run for both tables. -/
  bankCountriesDataset : String := "bank_countries.json"
  sqlDir : String := "sql"
  countriesOutput : String := "seed_countries.sql"
  banksOutput : String := "seed_banks.sql"
  /-- Where a run for countries exports their identifiers, among the datasets. -/
  identifiersOutput : Option String := some "country_identifier.json"
  fullReseed : Bool := false
  bankNameSuffix : String := " Bank"
  nameLocale : String := "en_US"
  nameSeed : Option Int := none
deriving DecidableEq, Repr

namespace Settings

structure Sources where
  environment : Environment
  file : Environment := []

namespace Sources

def prefixText : String := "FINPAY_SEED_"

/-- A variable, from the environment if it is there, else from the file. -/
def get? (s : Sources) (name : String) : Option String :=
  (s.environment.setting? name).or (s.file.setting? name)

def find? (s : Sources) (field : String) : Option String :=
  s.get? (prefixText ++ field)

def readValue {α : Type} (s : Sources) (field : String) (default : α)
    (read : String → Except Validation.Fault α) : Except Validation.Problem α :=
  match s.find? field with
  | none => .ok default
  | some text => (read text).mapError fun fault => ⟨[field], fault⟩

end Sources

/-- A blank name of an export disables it. -/
def exportName? (name : String) : Option String :=
  if Text.isBlankText name then none else some name

/-- The settings that the sources give, or all problems in the order of the fields. -/
def ofSources (s : Sources) : Except (List Validation.Problem) Settings :=
  let defaults : Settings := {}
  let text (field : String) (default : String) := (s.find? field).getD default
  match s.readValue "full_reseed" defaults.fullReseed readSwitch,
    s.readValue "faker_seed" defaults.nameSeed fun t => (readWhole t).map some with
  | .ok fullReseed, .ok nameSeed => .ok {
      logLevel := Text.upperCase ((s.get? "LOG_LEVEL").getD defaults.logLevel)
      seedDir := text "seed_dir" defaults.seedDir
      countriesDataset := text "countries_dataset" defaults.countriesDataset
      banksDataset := text "banks_dataset" defaults.banksDataset
      bankCountriesDataset := text "bank_countries_dataset" defaults.bankCountriesDataset
      sqlDir := text "sql_dir" defaults.sqlDir
      countriesOutput := text "countries_output" defaults.countriesOutput
      banksOutput := text "banks_output" defaults.banksOutput
      identifiersOutput :=
        match s.find? "country_identifiers_output" with
        | some name => exportName? name
        | none => defaults.identifiersOutput
      fullReseed
      bankNameSuffix := text "bank_name_suffix" defaults.bankNameSuffix
      nameLocale := text "faker_locale" defaults.nameLocale
      nameSeed }
  | switch, seed =>
    .error (problem switch ++ problem seed)
where
  problem {α : Type} : Except Validation.Problem α → List Validation.Problem
    | .ok _ => []
    | .error p => [p]

def seedPath (s : Settings) (name : String) : Files.Path :=
  Files.Path.ofText s.seedDir ++ Files.Path.ofText name

def sqlPath (s : Settings) (name : String) : Files.Path :=
  Files.Path.ofText s.sqlDir ++ Files.Path.ofText name

end Settings
end SeedScript
