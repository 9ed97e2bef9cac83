import SeedScript.Log.Setup

/-!
# Sessions of logging

Once logging is set up, a program can set it up again and tell loggers of events, in any order. A session
keeps the root, the files and what the console has shown.
-/

namespace SeedScript.Log

open Files (Tree)

inductive Call where
  /-- Sets logging up again, at a level or else at that of the environment. -/
  | configure (level : Option Int)
  | emit (logger : Logger) (severity : Severity) (name : String) (fields : Fields)
    (timestamp : String)

structure Session where
  root : Root
  tree : Tree
  /-- What the console has shown so far. -/
  console : List Event := []

namespace Session

def serve (m : Machine) (s : Session) : Call → Except Error Session
  | .configure level =>
    ({ m with tree := s.tree }.configure s.root level).map fun (root, tree) => { s with root, tree }
  | .emit logger severity name fields timestamp =>
    let e := logger.event severity name fields
    .ok { s with
      console := s.console ++ s.root.shown [e]
      tree := s.root.keep timestamp s.tree [e] }

def run (m : Machine) (s : Session) (calls : List Call) : Except Error Session :=
  calls.foldlM (serve m) s

end Session
end SeedScript.Log
