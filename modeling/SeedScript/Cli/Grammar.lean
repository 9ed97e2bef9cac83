import SeedScript.Cli.Number
import SeedScript.Text.Quoted

/-!
# Options on a command line

A grammar lists options by their names. An argument is an option if it is a name, a name with a
value behind an equals sign, the start of one long name only, or a short name with more behind it.
What looks like an option of no name is unknown, unless it is a negative number or holds a space.
-/

namespace SeedScript.Cli

inductive Effect where
  | help
  /-- Is present or not, and takes no value. -/
  | switch
  | text
  | number
deriving DecidableEq, Repr

namespace Effect

def takesValue : Effect → Bool
  | text | number => true
  | help | switch => false

end Effect

structure OptionSpec where
  /-- All names, the short one first. -/
  names : List String
  effect : Effect
deriving DecidableEq, Repr

/-- The options that a parser knows, in the order in which they are listed. -/
abbrev Grammar := List OptionSpec

inductive UsageError where
  | ambiguous (argument : String) (names : List String)
  | missingValue (option : OptionSpec)
  | notNumber (option : OptionSpec) (value : String)
  | unwantedValue (option : OptionSpec) (value : String)
  | unrecognized (arguments : List String)
  | noCommand
  | unknownCommand (word : String) (commands : List String)
deriving DecidableEq, Repr

namespace UsageError

def title (o : OptionSpec) : String :=
  "argument " ++ Text.join "/" o.names ++ ": "

def message : UsageError → String
  | ambiguous argument names =>
    "ambiguous option: " ++ argument ++ " could match " ++ Text.join ", " names
  | missingValue o => title o ++ "expected one argument"
  | notNumber o value => title o ++ "invalid int value: " ++ Text.quoted value
  | unwantedValue o value => title o ++ "ignored explicit argument " ++ Text.quoted value
  | unrecognized arguments => "unrecognized arguments: " ++ Text.join " " arguments
  | noCommand => "the following arguments are required: command"
  | unknownCommand word commands =>
    "argument command: invalid choice: " ++ Text.quoted word ++ " (choose from " ++
      Text.join ", " (commands.map Text.quoted) ++ ")"

end UsageError

inductive Argument where
  | value
  /-- Two hyphens alone: all that follows is values. -/
  | separator
  /-- The name of an option, and the text behind it if there is more: after an equals sign, or
  directly after a short name. -/
  | option (o : OptionSpec) (name : String) (attached : Option (List Char))
  | unknown
deriving DecidableEq, Repr

namespace Grammar

def entries (g : Grammar) : List (String × OptionSpec) :=
  g.flatMap fun o => o.names.map (·, o)

def find? (g : Grammar) (name : String) : Option OptionSpec :=
  g.entries.lookup name

/-- The text in front of the first equals sign, and the text behind it if there is one. -/
def splitEquals (s : String) : String × Option (List Char) :=
  (String.ofList (s.toList.takeWhile (· ≠ '=')),
    match s.toList.dropWhile (· ≠ '=') with
    | _ :: rest => some rest
    | [] => none)

def isLong (s : String) : Bool :=
  "--".toList.isPrefixOf s.toList

/-- Each option that an argument may be, if it is not a whole name. -/
def candidates (g : Grammar) (s : String) : List (String × OptionSpec × Option (List Char)) :=
  if isLong s then
    let (start, rest) := splitEquals s
    g.entries.filterMap fun (name, o) =>
      if start.toList.isPrefixOf name.toList then some (name, o, rest) else none
  else
    g.entries.filterMap fun (name, o) =>
      if name.toList = s.toList.take 2 then some (name, o, some (s.toList.drop 2))
      else if s.toList.isPrefixOf name.toList then some (name, o, none)
      else none

/-- The option that an argument names in full, alone or with a value behind an equals sign. -/
def whole? (g : Grammar) (s : String) : Option Argument :=
  match g.find? s, splitEquals s with
  | some o, _ => some (.option o s none)
  | none, (name, some rest) => (g.find? name).map fun o => .option o name (some rest)
  | none, _ => none

def classify (g : Grammar) (s : String) : Except UsageError Argument :=
  if s.toList.head? ≠ some '-' then .ok .value
  else if s = "-" then .ok .value
  else
    match g.whole? s with
    | some a => .ok a
    | none =>
      match g.candidates s with
      | [(name, o, attached)] => .ok (.option o name attached)
      | [] => .ok (if isNegative s || s.toList.contains ' ' then .value else .unknown)
      | several => .error (.ambiguous s (several.map Prod.fst))

def classifyAll (g : Grammar) : List String → Except UsageError (List (String × Argument))
  | [] => .ok []
  | s :: rest =>
    if s = "--" then .ok ((s, .separator) :: rest.map (·, .value))
    else
      match g.classify s with
      | .error e => .error e
      | .ok a => (g.classifyAll rest).map ((s, a) :: ·)

end Grammar
end SeedScript.Cli
