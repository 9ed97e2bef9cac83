import SeedScript.Files.Tree
import SeedScript.Json.Printer
import SeedScript.Log.Event

/-!
# The root of logging

All events go through one root, which has a level and handlers. Its own handlers write to the
console and, if wanted, to a journal file; configuring it replaces them and leaves foreign handlers
alone.
-/

namespace SeedScript.Log

open Files (Path Tree)

inductive Sink where
  | console
  | journal (path : Path)
  | foreign (name : String)
deriving DecidableEq, Repr

structure Handler where
  sink : Sink
  threshold : Int := 0
deriving DecidableEq, Repr

def Handler.isOwn (h : Handler) : Bool :=
  match h.sink with
  | .foreign _ => false
  | _ => true

structure Root where
  level : Int := 30
  handlers : List Handler := []
deriving DecidableEq, Repr

namespace Root

def ownHandlers (r : Root) : List Handler :=
  r.handlers.filter Handler.isOwn

def configure (r : Root) (level : Int) (journal : Option Path) : Root where
  level := level
  handlers := r.handlers.filter (fun h => !h.isOwn) ++
    ⟨.console, level⟩ :: (journal.map fun p => ⟨.journal p, level⟩).toList

/-- Where an event is written: both the root and the handler have to let it pass. -/
def receivers (r : Root) (e : Event) : List Sink :=
  if r.level ≤ e.severity.level then
    (r.handlers.filter fun h => h.threshold ≤ e.severity.level).map Handler.sink
  else []

def shown (r : Root) (events : List Event) : List Event :=
  events.flatMap fun e => (r.receivers e).filterMap fun
    | .console => some e
    | _ => none

def line (e : Event) (timestamp : String) : List UInt8 :=
  Text.Utf8.encode ((e.record timestamp).oneLine ++ "\n")

def keep (r : Root) (timestamp : String) (tree : Tree) (events : List Event) : Tree :=
  events.foldl (fun tree e => (r.receivers e).foldl (fun tree sink =>
    match sink with
    | .journal p => tree.append p (line e timestamp)
    | _ => tree) tree) tree

end Root
end SeedScript.Log
