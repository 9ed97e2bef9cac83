import SeedScript.Cli.Arguments
import SeedScript.Job
import SeedScript.Settings.Basic

/-!
# Commands

The program has a command for each job. The first parser finds the command and hands on all other
arguments; the parser of the command reads them. What the arguments leave open comes from the
settings.
-/

namespace SeedScript.Cli

inductive Command where
  | countries
  | banks
  | all
deriving DecidableEq, Repr

/-! ## Options -/

def helpOption : OptionSpec := ⟨["-h", "--help"], .help⟩
def inputOption : OptionSpec := ⟨["--input"], .text⟩
def outputOption : OptionSpec := ⟨["--output"], .text⟩
def countriesInputOption : OptionSpec := ⟨["--countries-input"], .text⟩
def banksInputOption : OptionSpec := ⟨["--banks-input"], .text⟩
def countriesOutputOption : OptionSpec := ⟨["--countries-output"], .text⟩
def banksOutputOption : OptionSpec := ⟨["--banks-output"], .text⟩
def identifiersOption : OptionSpec := ⟨["--identifiers-out"], .text⟩
def seedOption : OptionSpec := ⟨["--faker-seed"], .number⟩
def localeOption : OptionSpec := ⟨["--faker-locale"], .text⟩
def reseedOption : OptionSpec := ⟨["--full-reseed"], .switch⟩
def verboseOption : OptionSpec := ⟨["-v", "--verbose"], .switch⟩

namespace Command

def word : Command → String
  | countries => "countries"
  | banks => "banks"
  | all => "all"

def list : List Command := [countries, banks, all]

def ofWord? (w : String) : Option Command :=
  list.find? fun c => c.word = w

theorem ofWord?_word (c : Command) : ofWord? c.word = some c := by cases c <;> decide

def programName : String := "finpay_seed.cli"

def title (c : Command) : String :=
  programName ++ " " ++ c.word

def grammar : Command → Grammar
  | countries =>
    [helpOption, inputOption, outputOption, identifiersOption, reseedOption, verboseOption]
  | banks =>
    [helpOption, inputOption, outputOption, seedOption, localeOption, reseedOption, verboseOption]
  | all =>
    [helpOption, countriesInputOption, banksInputOption, countriesOutputOption, banksOutputOption,
      identifiersOption, seedOption, localeOption, reseedOption, verboseOption]

end Command

/-! ## Finding the command -/

def programGrammar : Grammar := [helpOption]

/-- What the first parser knows of a command besides its name: it has no options. -/
def commandGrammar : Grammar := []

def readCommand (w : String) : Except Stop Command :=
  match Command.ofWord? w with
  | some c => .ok c
  | none => .error (.usage (.unknownCommand w (Command.list.map Command.word)))

/-- A command with all arguments that its own parser is to read. Those behind it are read once
before, and handed on as far as they are left over. -/
def enter (w : String) (handed behind : List String) : Except Stop (Command × List String) :=
  (readCommand w).bind fun c =>
    (commandGrammar.parseKnown behind).map fun p => (c, handed ++ p.left)

/-- Reads classified arguments up to the command. The options in front of it are handed on, in front
of all arguments behind it. -/
def findCommand (handed : List String) : List (String × Argument) →
    Except Stop (Command × List String)
  | [] => .error (.usage .noCommand)
  | (s, .value) :: rest => enter s handed (rest.map Prod.fst)
  | (s, .separator) :: rest =>
    if rest.isEmpty then .error (.usage .noCommand) else enter s handed (rest.map Prod.fst)
  | (s, .unknown) :: rest => findCommand (handed ++ [s]) rest
  | (_, .option o name attached) :: _ =>
    match optionsOf programGrammar o name attached with
    | .error e => .error (.usage e)
    | .ok _ => .error .help

def splitCommand (arguments : List String) : Except Stop (Command × List String) :=
  match programGrammar.classifyAll arguments with
  | .error e => .error (.usage e)
  | .ok classified => findCommand [] classified

/-! ## Options and settings -/

/-- The value of a path option unless it is empty, and otherwise the path of the settings. -/
def pathFrom (p : Parsed) (o : OptionSpec) (setting : Files.Path) : String :=
  match p.text? o with
  | none | some "" => setting.text
  | some path => path

/-- The value of an option that an empty text disables. -/
def optionalPath (p : Parsed) (o : OptionSpec) (fallback : Option String) : Option String :=
  match p.text? o with
  | none => fallback
  | some "" => none
  | some path => some path

def fullReseed (p : Parsed) (s : Settings) : Bool :=
  p.has reseedOption || s.fullReseed

def givenSeed (p : Parsed) : Option Seed :=
  match p.last? seedOption with
  | some (.number n) => some (.number n)
  | some .nothing => some .empty
  | _ => none

def nameSource (p : Parsed) (s : Settings) : RunStep NameSource :=
  let locale := match p.text? localeOption with
    | none | some "" => s.nameLocale
    | some locale => locale
  NameSource.generator locale ((givenSeed p).or (s.nameSeed.map .number)) s.bankNameSuffix

def Command.job (c : Command) (p : Parsed) (s : Settings) : RunStep Job :=
  match c with
  | countries => pure <| .countries (pathFrom p inputOption (s.seedPath s.countriesDataset))
      (pathFrom p outputOption (s.sqlPath s.countriesOutput))
      (optionalPath p identifiersOption
        (s.identifiersOutput.map fun name => (s.seedPath name).text))
  | banks => do
    let names ← nameSource p s
    pure <| .banks (pathFrom p inputOption (s.seedPath s.banksDataset))
      (pathFrom p outputOption (s.sqlPath s.banksOutput)) (some names)
  | all => do
    let names ← nameSource p s
    pure <| .all (pathFrom p countriesInputOption (s.seedPath s.countriesDataset))
      (pathFrom p banksInputOption (s.seedPath s.bankCountriesDataset))
      (pathFrom p countriesOutputOption (s.sqlPath s.countriesOutput))
      (pathFrom p banksOutputOption (s.sqlPath s.banksOutput))
      (optionalPath p identifiersOption none) (some names)

end SeedScript.Cli
