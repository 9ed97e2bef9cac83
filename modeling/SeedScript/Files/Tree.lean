import SeedScript.Failure
import SeedScript.Files.Path

/-!
# File trees

The state of the files that a run can see: which entries there are, what the files hold, and where
relative paths start. Every entry is in a directory, which is part of the type. A file is replaced by
way of a new one next to it, which is moved into place when it is complete: a write succeeds as a
whole or changes nothing.
-/

namespace SeedScript.Files

/-- A place in a tree: the names on the way from the root. -/
abbrev Location := List String

inductive Entry where
  | file (bytes : List UInt8)
  | directory
deriving DecidableEq

/-- The entries of a tree. The root is a directory and is not listed. -/
abbrev Entries := List (Location × Entry)

namespace Entries

def get? (es : Entries) (l : Location) : Option Entry :=
  es.lookup l

def set (es : Entries) (l : Location) (e : Entry) : Entries :=
  match es with
  | [] => [(l, e)]
  | (l', e') :: rest => if l = l' then (l', e) :: rest else (l', e') :: set rest l e

def remove (es : Entries) (l : Location) : Entries :=
  match es with
  | [] => []
  | (m, e) :: rest => if l = m then remove rest l else (m, e) :: remove rest l

@[simp] theorem get?_nil (l : Location) : get? [] l = none := rfl

theorem get?_cons (x : Location × Entry) (es : Entries) (l : Location) :
    get? (x :: es) l = if l = x.1 then some x.2 else get? es l := by
  unfold get?
  rw [List.lookup_cons]
  by_cases h : l = x.1
  · simp [h]
  · simp [h, beq_false_of_ne h]

theorem get?_set_self (es : Entries) (l : Location) (e : Entry) : (es.set l e).get? l = some e := by
  induction es with
  | nil => simp [set, get?_cons]
  | cons x rest ih =>
    unfold set
    split
    · next h => simp [get?_cons, h]
    · next h => simpa [get?_cons, h] using ih

theorem get?_set_of_ne (es : Entries) {l m : Location} (e : Entry) (h : m ≠ l) :
    (es.set l e).get? m = es.get? m := by
  induction es with
  | nil => simp [set, get?_cons, h]
  | cons x rest ih =>
    unfold set
    split
    · next hx => subst hx; simp [get?_cons, h]
    · simp [get?_cons, ih]

theorem remove_set (es : Entries) (l : Location) (e : Entry) (h : es.get? l = none) :
    (es.set l e).remove l = es := by
  induction es with
  | nil => simp [set, remove]
  | cons x rest ih =>
    rw [get?_cons] at h
    split at h
    · cases h
    · next hx => simp [set, remove, hx, ih h]

theorem get?_remove_of_ne (es : Entries) {l m : Location} (h : m ≠ l) :
    (es.remove l).get? m = es.get? m := by
  induction es with
  | nil => rfl
  | cons x rest ih =>
    unfold remove
    split
    · next hx => subst hx; simp [get?_cons, h, ih]
    · simp [get?_cons, ih]

theorem get?_remove_self (es : Entries) (l : Location) : (es.remove l).get? l = none := by
  induction es with
  | nil => rfl
  | cons x rest ih =>
    unfold remove
    split
    · exact ih
    · next hx => simp [get?_cons, hx, ih]

def isDirectory (es : Entries) (l : Location) : Bool :=
  l.isEmpty || es.get? l = some .directory

/-- Every entry is in a directory. -/
def Closed (es : Entries) : Prop :=
  ∀ l name e, es.get? (l ++ [name]) = some e → es.isDirectory l = true

theorem closed_nil : Closed [] := by
  intro l name e h
  simp at h

theorem isDirectory_set_of_ne (es : Entries) {l m : Location} (e : Entry) (h : m ≠ l) :
    (es.set l e).isDirectory m = es.isDirectory m := by
  simp [isDirectory, get?_set_of_ne es e h]

theorem Closed.set {es : Entries} (h : es.Closed) {l : Location} (e : Entry)
    (hParent : es.isDirectory l.dropLast = true) (hPlace : es.get? l ≠ some .directory) :
    (es.set l e).Closed := by
  intro m name e' he'
  by_cases hl : m ++ [name] = l
  · subst hl
    have hm : m ≠ m ++ [name] := by simp
    rw [isDirectory_set_of_ne es e hm]
    simpa using hParent
  · rw [get?_set_of_ne es e hl] at he'
    have hdir := h m name e' he'
    by_cases hm : m = l
    · subst hm
      have hEmpty : m.isEmpty = true := by simpa [isDirectory, hPlace] using hdir
      simp [isDirectory, hEmpty]
    · rwa [isDirectory_set_of_ne es e hm]

theorem Closed.remove {es : Entries} (h : es.Closed) {l : Location}
    (hPlace : es.get? l ≠ some .directory) : (es.remove l).Closed := by
  intro m name e he
  by_cases hl : m ++ [name] = l
  · rw [hl, get?_remove_self] at he
    cases he
  · rw [get?_remove_of_ne es hl] at he
    have hdir := h m name e he
    by_cases hm : m = l
    · subst hm
      have hEmpty : m.isEmpty = true := by simpa [isDirectory, hPlace] using hdir
      simp [isDirectory, hEmpty]
    · simpa [isDirectory, get?_remove_of_ne es hm] using hdir

end Entries

structure Tree where
  here : Location
  entries : Entries
  /-- The letters in the names of temporary files. -/
  salt : String := "XXXXXXXX"
  closed : entries.Closed

namespace Tree

def isDirectoryAt (t : Tree) (l : Location) : Bool :=
  t.entries.isDirectory l

/-- Puts an entry at a place. Nothing happens if the place is not in a directory, or is a directory
itself. -/
def put (t : Tree) (l : Location) (e : Entry) : Tree :=
  if h : t.entries.isDirectory l.dropLast = true ∧ t.entries.get? l ≠ some .directory then
    { t with entries := t.entries.set l e, closed := t.closed.set e h.1 h.2 }
  else t

def delete (t : Tree) (l : Location) : Tree :=
  if h : t.entries.get? l ≠ some .directory then
    { t with entries := t.entries.remove l, closed := t.closed.remove h }
  else t

/-- Puts an entry at a place after directories on the way to it, as far as they can be made. -/
def putAlong (t : Tree) (l : Location) (e : Entry) : Tree :=
  ((List.range (l.length - 1)).foldl (fun t n => t.put (l.take (n + 1)) .directory) t).put l e

def ofEntries (here : Location) (entries : Entries) : Tree :=
  ((here, .directory) :: entries).foldl (fun t e => t.putAlong e.1 e.2)
    { here, entries := [], closed := Entries.closed_nil }

inductive WalkFault where
  | missing
  | notDirectory
  | nameTooLong
deriving DecidableEq, Repr

/-- One step of a walk: from a directory up, or to a name in it. -/
def step (t : Tree) (l : Location) (part : String) : Except WalkFault Location :=
  if t.isDirectoryAt l then
    if Path.nameLimit < part.utf8ByteSize then .error .nameTooLong
    else .ok (if part = ".." then l.dropLast else l ++ [part])
  else if (t.entries.get? l).isSome then .error .notDirectory
  else .error .missing

/-- The place that a path leads to. Everything but the last part has to be there. A path with the
character NUL leads nowhere. -/
def locate (t : Tree) (p : Path) : Except WalkFault Location :=
  if p.text.toList.contains '\x00' then .error .missing
  else if Path.textLimit < p.text.utf8ByteSize then .error .nameTooLong
  else p.parts.foldlM t.step (if p.isAbsolute then [] else t.here)

def read? (t : Tree) (p : Path) : Option (List UInt8) :=
  match (t.locate p).toOption.bind t.entries.get? with
  | some (.file bytes) => some bytes
  | _ => none

def temporaryName (t : Tree) (name : String) (n : Nat) : String :=
  "." ++ name ++ "." ++ t.salt ++ String.ofList (List.replicate n '_') ++ ".tmp"

/-- The first of the temporary names, from the `n`-th on, that is not in use. -/
def unusedName (t : Tree) (dir : Location) (name : String) : (tries n : Nat) → String
  | 0, n => t.temporaryName name n
  | tries + 1, n =>
    if (t.entries.get? (dir ++ [t.temporaryName name n])).isSome then
      t.unusedName dir name tries (n + 1)
    else t.temporaryName name n

def move (t : Tree) (source : Location) (shown : String) (dir : Location) (target : Path) :
    Except WriteFault Tree :=
  let place := dir ++ [target.name]
  if Path.textLimit < target.text.utf8ByteSize then .error (.pathTooLong shown target.text)
  else if !target.namesEntry then .error (.busy shown target.text)
  else if t.entries.get? place = some .directory then .error (.isDirectory shown target.text)
  else
    match t.entries.get? source with
    | some e => .ok ((t.delete source).put place e)
    | none => .ok t

def reachParent (t : Tree) (p : Path) : Except WriteFault Location :=
  match t.locate p.parent with
  | .error .nameTooLong => .error (.nameTooLong p.parent.text)
  | .error _ => .error (.missingParent p.parent.text)
  | .ok dir => if t.isDirectoryAt dir then .ok dir else .error (.missingParent p.parent.text)

/-- Writes a file. It is complete before it takes the place of an older one, and nothing stays of
it if it cannot. -/
def write (t : Tree) (p : Path) (bytes : List UInt8) : Except WriteFault Unit × Tree :=
  match t.reachParent p with
  | .error fault => (.error fault, t)
  | .ok dir =>
    let temporary := t.unusedName dir p.name t.entries.length 0
    let source := dir ++ [temporary]
    let shown := ((p.parent ++ { parts := [temporary] }).absolute t.here).text
    if Path.nameLimit < temporary.utf8ByteSize || Path.textLimit < shown.utf8ByteSize then
      (.error (.nameTooLong shown), t)
    else
      let written := t.put source (.file bytes)
      match written.move source shown dir p with
      | .ok moved => (.ok (), moved)
      | .error fault => (.error fault, written.delete source)

def append (t : Tree) (p : Path) (bytes : List UInt8) : Tree :=
  match t.locate p with
  | .error _ => t
  | .ok l =>
    match t.entries.get? l with
    | some (.file old) => t.put l (.file (old ++ bytes))
    | _ => t.put l (.file bytes)

inductive OpenFault where
  | isDirectory (path : String)
  | nameTooLong (path : String)
deriving DecidableEq, Repr

/-- Opens a file to write at its end. It is made, empty, if it is not there. -/
def openEnd (t : Tree) (p : Path) : Except OpenFault Tree :=
  let shown := (p.absolute t.here).text
  if Path.nameLimit < p.name.utf8ByteSize || Path.textLimit < shown.utf8ByteSize then
    .error (.nameTooLong shown)
  else if (t.locate p).toOption.any t.isDirectoryAt then .error (.isDirectory shown)
  else .ok (t.append p [])

inductive DirectoryFault where
  | fileInPlace (path : String)
  | fileOnTheWay (path : String)
  | nameTooLong (path : String)
deriving DecidableEq, Repr

/-- Makes one directory whose parent is there, or finds it. -/
def makeDirectory (t : Tree) (p : Path) : Except DirectoryFault Tree :=
  match t.locate p with
  | .error .nameTooLong => .error (.nameTooLong p.text)
  | .error _ => .error (.fileOnTheWay p.text)
  | .ok l =>
    if t.isDirectoryAt l then .ok t
    else if (t.entries.get? l).isSome then .error (.fileInPlace p.text)
    else .ok (t.put l .directory)

/-- Makes a directory after those that it is in; the parts of its path come last first. -/
def makeDirectoriesUp (t : Tree) (root : String) : List String → Except DirectoryFault Tree
  | [] => t.makeDirectory { root }
  | part :: up =>
    let p : Path := { root, parts := (part :: up).reverse }
    match t.locate p with
    | .error .missing => (t.makeDirectoriesUp root up).bind (·.makeDirectory p)
    | _ => t.makeDirectory p

def makeDirectories (t : Tree) (p : Path) : Except DirectoryFault Tree :=
  t.makeDirectoriesUp p.root p.parts.reverse

/-- The locations of the files and directories whose entries differ from those of an earlier tree,
with what is there now. -/
def changesSince (t earlier : Tree) : List (Location × Option Entry) :=
  (t.entries.filterMap fun (l, e) =>
    if earlier.entries.get? l = some e then none else some (l, some e)) ++
  earlier.entries.filterMap fun (l, _) =>
    if (t.entries.get? l).isNone then some (l, none) else none

end Tree
end SeedScript.Files
