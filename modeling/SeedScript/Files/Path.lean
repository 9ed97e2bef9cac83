import SeedScript.Text.Join
import SeedScript.Text.Split

/-!
# Paths

A path is a root, which may be missing, and parts. Empty parts and single dots mean nothing and are
dropped. A double dot stays, because what it leads to depends on the tree. Two slashes in front are
a root of their own; any other number of them is the same as one.
-/

namespace SeedScript.Files

structure Path where
  root : String := ""
  parts : List String := []
deriving DecidableEq, Repr

namespace Path

/-- The root of a path, by the slashes at its start. -/
def rootOf : List Char → String
  | '/' :: '/' :: '/' :: _ => "/"
  | '/' :: '/' :: _ => "//"
  | '/' :: _ => "/"
  | _ => ""

def ofText (s : String) : Path where
  root := rootOf s.toList
  parts := (Text.split '/' s).filter fun part => part ≠ "" && part ≠ "."

def text (p : Path) : String :=
  if p.root.isEmpty && p.parts.isEmpty then "." else p.root ++ Text.join "/" p.parts

instance : ToString Path := ⟨text⟩

def isAbsolute (p : Path) : Bool :=
  !p.root.isEmpty

/-- The path without its last part; a path without parts is its own parent. -/
def parent (p : Path) : Path :=
  { p with parts := p.parts.dropLast }

def name (p : Path) : String :=
  p.parts.getLast?.getD ""

def append (p q : Path) : Path :=
  if q.isAbsolute then q else { p with parts := p.parts ++ q.parts }

instance : Append Path := ⟨append⟩

/-- The longest name of an entry, in bytes. -/
def nameLimit : Nat := 255

/-- The longest text of a path, in bytes. -/
def textLimit : Nat := 4095

def namesEntry (p : Path) : Bool :=
  p.name ≠ "" && p.name ≠ ".."

/-- Parts without double dots, each of which takes the part in front of it away. -/
def collapse (parts : List String) : List String :=
  parts.foldl (fun done part => if part = ".." then done.dropLast else done ++ [part]) []

/-- The path from the root that a path stands for, by its text alone. -/
def absolute (here : List String) (p : Path) : Path :=
  if p.isAbsolute then { p with parts := collapse p.parts }
  else { root := "/", parts := collapse (here ++ p.parts) }

end Path
end SeedScript.Files
