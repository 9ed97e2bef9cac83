import SeedScript.Cli.Grammar

/-!
# Reading arguments

Arguments are read from left to right. An option that takes a value takes the one attached to it,
or else the next argument, which has to be a value. Short names can be written together behind one
hyphen. An attached value of two hyphens is dropped, and the option has none. What belongs to no
option is left over.
-/

namespace SeedScript.Cli

inductive Given where
  | present
  | text (s : String)
  | number (n : Int)
  /-- The option takes a value, and the one given to it was dropped. -/
  | nothing
deriving DecidableEq, Repr

/-- What arguments say: the values of options, in order, and the arguments left over. -/
structure Parsed where
  given : List (OptionSpec × Given) := []
  left : List String := []
deriving DecidableEq, Repr

inductive Stop where
  | help
  | usage (e : UsageError)
deriving DecidableEq, Repr

namespace Parsed

def takeAlone (p : Parsed) (o : OptionSpec) : Except Stop Parsed :=
  if o.effect = .help then .error .help else .ok { p with given := p.given ++ [(o, .present)] }

def takeValue (p : Parsed) (o : OptionSpec) (value : String) : Except Stop Parsed :=
  if o.effect = .number then
    match integer? value with
    | some n => .ok { p with given := p.given ++ [(o, .number n)] }
    | none => .error (.usage (.notNumber o value))
  else .ok { p with given := p.given ++ [(o, .text value)] }

def takeAttached (p : Parsed) (o : OptionSpec) (value : String) : Except Stop Parsed :=
  if value = "--" then .ok { p with given := p.given ++ [(o, .nothing)] } else p.takeValue o value

def leave (p : Parsed) (argument : String) : Parsed :=
  { p with left := p.left ++ [argument] }

def last? (p : Parsed) (o : OptionSpec) : Option Given :=
  p.given.reverse.lookup o

def has (p : Parsed) (o : OptionSpec) : Bool :=
  (p.last? o).isSome

def text? (p : Parsed) (o : OptionSpec) : Option String :=
  match p.last? o with
  | some (.text s) => some s
  | some .nothing => some ""
  | _ => none

end Parsed

/-- How an argument of options ends, after the options without values at its start. -/
inductive Ending where
  /-- An option whose value, if it takes one, is the next argument. -/
  | plain (o : OptionSpec)
  | value (o : OptionSpec) (text : String)
deriving DecidableEq, Repr

def withText (o : OptionSpec) (text : List Char) :
    Except UsageError (List OptionSpec × Ending) :=
  if o.effect.takesValue then .ok ([], .value o (String.ofList text))
  else .error (.unwantedValue o (String.ofList text))

def inFront (o : OptionSpec) (r : Except UsageError (List OptionSpec × Ending)) :
    Except UsageError (List OptionSpec × Ending) :=
  r.map fun (front, ending) => (o :: front, ending)

/-- An option with a text behind its name. If the name is short and the option takes no value, the
text is more short names. -/
def unbundle (g : Grammar) (o : OptionSpec) (short : Bool) :
    List Char → Except UsageError (List OptionSpec × Ending)
  | [] => withText o []
  | c :: cs =>
    if o.effect.takesValue || !short then withText o (c :: cs)
    else
      match g.find? (String.ofList ['-', c]) with
      | none => withText o (c :: cs)
      | some next => inFront o (if cs.isEmpty then .ok ([], .plain next) else unbundle g next true cs)

/-- The options in one argument: those without values in front, and the ending. -/
def optionsOf (g : Grammar) (o : OptionSpec) (name : String) :
    Option (List Char) → Except UsageError (List OptionSpec × Ending)
  | none => .ok ([], .plain o)
  | some text => unbundle g o (!Grammar.isLong name) text

def takeFront (p : Parsed) (front : List OptionSpec) : Except Stop Parsed :=
  front.foldlM Parsed.takeAlone p

def readArguments (g : Grammar) (p : Parsed) : List (String × Argument) → Except Stop Parsed
  | [] => .ok p
  | (s, .value) :: rest | (s, .separator) :: rest | (s, .unknown) :: rest =>
    readArguments g (p.leave s) rest
  | (_, .option o name attached) :: rest =>
    match optionsOf g o name attached with
    | .error e => .error (.usage e)
    | .ok (front, .plain last) =>
      if last.effect.takesValue then
        match rest with
        | (value, .value) :: rest =>
          (takeFront p front).bind fun p => (p.takeValue last value).bind fun p =>
            readArguments g p rest
        | _ => .error (.usage (.missingValue last))
      else
        (takeFront p front).bind fun p => (p.takeAlone last).bind fun p => readArguments g p rest
    | .ok (front, .value last value) =>
      (takeFront p front).bind fun p => (p.takeAttached last value).bind fun p =>
        readArguments g p rest

def Grammar.parseKnown (g : Grammar) (arguments : List String) : Except Stop Parsed :=
  match g.classifyAll arguments with
  | .error e => .error (.usage e)
  | .ok classified => readArguments g {} classified

def Grammar.parse (g : Grammar) (arguments : List String) : Except Stop Parsed :=
  (g.parseKnown arguments).bind fun p =>
    if p.left.isEmpty then .ok p else .error (.usage (.unrecognized p.left))

end SeedScript.Cli
