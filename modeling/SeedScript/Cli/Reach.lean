import SeedScript.Cli.Run

/-!
# The reach of a run

The paths that a run reads or writes. A tree that agrees with the files at these paths, and with the
directories that they are in, is all that the run can tell of its machine.
-/

namespace SeedScript

open Files (Path)

def Job.paths : Job → List Path
  | countries input output identifiersOutput =>
    (input :: output :: identifiersOutput.toList).map Path.ofText
  | banks input output _ => [input, output].map Path.ofText
  | all countriesInput banksInput countriesOutput banksOutput identifiersOutput _ =>
    (countriesInput :: banksInput :: countriesOutput :: banksOutput ::
      identifiersOutput.toList).map Path.ofText

namespace Cli

def jobOf? (m : Log.Machine) (progress : Progress) (arguments : List String) : Option Job :=
  match splitCommand arguments, m.settings with
  | .ok (c, rest), .ok s =>
    match c.grammar.parse rest with
    | .ok p => (c.job p s progress).1.toOption
    | .error _ => none
  | _, _ => none

/-- The paths that a run reads or writes, the settings file apart. -/
def reach (m : Log.Machine) (progress : Progress) (arguments : List String) : List Path :=
  m.journal :: ((jobOf? m progress arguments).elim [] Job.paths)

end Cli
end SeedScript
