import SeedScript.Error
import SeedScript.Log.Event
import SeedScript.StatementSet

/-!
# Writing scripts and exports

An output is a text of a statement set and the path it goes to. Outputs are written one after the
other; the first that cannot be written stops the rest.
-/

namespace SeedScript

open Files (Path Tree)

inductive Product where
  | script
  | identifiers
deriving DecidableEq, Repr

structure Output where
  product : Product
  path : Path
  set : StatementSet
deriving DecidableEq

namespace Output

def text (o : Output) : String :=
  match o.product with
  | .script => o.set.script
  | .identifiers => o.set.exportText

def bytes (o : Output) : List UInt8 :=
  Text.Utf8.encode o.text

def problem (o : Output) (fault : WriteFault) : Problem :=
  match o.product with
  | .script => .scriptUnwritable fault
  | .identifiers => .exportUnwritable fault

def logger : Log.Logger := ⟨"finpay_seed.io.writer.script_writer", []⟩

def written (o : Output) : Log.Event :=
  match o.product with
  | .script => logger.event .info "script_written" [
      ("table", Log.Event.text o.set.table), ("path", Log.Event.text o.path.text), ("rows", Log.Event.count o.set.rowCount),
      ("statements", Log.Event.count o.set.statements.length)]
  | .identifiers => logger.event .info "identifiers_exported" [
      ("path", Log.Event.text o.path.text), ("count", Log.Event.count o.set.rowCount)]

/-- Writes an output. A name with the character NUL is refused once the directory is found, and is
no failure of the stage. -/
def write (o : Output) (tree : Tree) : Except Error Unit × Tree :=
  if (tree.reachParent o.path).isOk && o.path.name.toList.contains '\x00' then
    (.error .nullInName, tree)
  else
    let (result, tree) := tree.write o.path o.bytes
    (result.mapError fun fault => .ofProblem (o.problem fault) o.path.text, tree)

/-- Writes outputs in order up to the first that fails, with the events for those written. -/
def writeAll (tree : Tree) : List Output → Except Error Unit × List Log.Event × Tree
  | [] => (.ok (), [], tree)
  | o :: rest =>
    match o.write tree with
    | (.error e, tree) => (.error e, [], tree)
    | (.ok (), tree) =>
      let (result, events, tree) := writeAll tree rest
      (result, o.written :: events, tree)

theorem writeAll_of_error {o : Output} {rest : List Output} {tree tree' : Tree} {e : Error}
    (h : o.write tree = (.error e, tree')) :
    writeAll tree (o :: rest) = (.error e, [], tree') := by
  unfold writeAll
  rw [h]

theorem writeAll_of_ok {o : Output} {rest : List Output} {tree tree' : Tree}
    (h : o.write tree = (.ok (), tree')) :
    writeAll tree (o :: rest) = ((writeAll tree' rest).1, o.written :: (writeAll tree' rest).2.1,
      (writeAll tree' rest).2.2) := by
  conv =>
    lhs
    unfold writeAll
  rw [h]

end Output
end SeedScript
