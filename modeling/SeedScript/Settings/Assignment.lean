import SeedScript.Environment
import SeedScript.Text.Blank

/-!
# Settings files

A settings file holds assignments, one a line: a name, an equals sign and a value. White space
around the three, the word `export` in front, notes after a number sign and empty lines are passed
over. A value between quotes may hold line breaks and escapes. A line that is none of this is
skipped up to its end. A byte order mark in front of everything means nothing.
-/

namespace SeedScript.Settings

open Text (isBlank)

namespace Assignment

/-- White space that does not end a line. -/
def isLineBlank (c : Char) : Bool :=
  isBlank c && c ≠ '\n' && c ≠ '\r'

def skipBlanks (cs : List Char) : List Char :=
  cs.dropWhile isLineBlank

def skipLine (cs : List Char) : List Char :=
  (cs.dropWhile (· ≠ '\n')).drop 1

/-- The rest after the word `export`, if white space follows it. -/
def skipExport (cs : List Char) : List Char :=
  match cs with
  | 'e' :: 'x' :: 'p' :: 'o' :: 'r' :: 't' :: c :: rest =>
    if isLineBlank c then skipBlanks rest else cs
  | _ => cs

/-- What comes after a note and the end of the line; `none` if there is more on the line. -/
def endLine? (cs : List Char) : Option (List Char) :=
  match skipBlanks cs with
  | [] => some []
  | '\n' :: rest => some rest
  | '#' :: rest => some (skipLine rest)
  | _ => none

/-- The rest of a text between `quote`s up to the one that closes it. What is behind a backslash
does not close it. -/
def readQuoted (quote : Char) : List Char → Option (List Char × List Char)
  | [] => none
  | '\\' :: c :: cs => (readQuoted quote cs).map fun (value, rest) => ('\\' :: c :: value, rest)
  | c :: cs =>
    if c = quote then some ([], cs)
    else (readQuoted quote cs).map fun (value, rest) => (c :: value, rest)

/-- A text in which `meaning` tells the escapes from other backslashes. -/
def unescape (meaning : Char → Option Char) : List Char → List Char
  | '\\' :: c :: cs =>
    match meaning c with
    | some d => d :: unescape meaning cs
    | none => '\\' :: unescape meaning (c :: cs)
  | c :: cs => c :: unescape meaning cs
  | [] => []

def singleQuoteEscape : Char → Option Char
  | '\\' => some '\\'
  | '\'' => some '\''
  | _ => none

def doubleQuoteEscape : Char → Option Char
  | '\\' => some '\\'
  | '\'' => some '\''
  | '"' => some '"'
  | 'a' => some '\x07'
  | 'b' => some '\x08'
  | 'f' => some '\x0c'
  | 'n' => some '\n'
  | 'r' => some '\r'
  | 't' => some '\t'
  | 'v' => some '\x0b'
  | _ => none

/-- A value without quotes up to a note, which is a number sign behind white space. -/
def cutNote : List Char → List Char
  | [] => []
  | c :: cs => if isBlank c && cs.head? = some '#' then [] else c :: cutNote cs

def readValue (cs : List Char) : Option (List Char × List Char) :=
  match skipBlanks cs with
  | '\'' :: cs => (readQuoted '\'' cs).map fun (v, rest) => (unescape singleQuoteEscape v, rest)
  | '"' :: cs => (readQuoted '"' cs).map fun (v, rest) => (unescape doubleQuoteEscape v, rest)
  | _ => some (Text.trimList isBlank (cutNote (cs.takeWhile (· ≠ '\n'))), cs.dropWhile (· ≠ '\n'))

def isNamePart (c : Char) : Bool :=
  !(c = '=' || c = '#' || isBlank c)

/-- The name at the head of a line, with the rest. The name of a line that is a note is empty. -/
def readName : List Char → Option (List Char × List Char)
  | '#' :: cs => some ([], '#' :: cs)
  | '\'' :: cs =>
    match cs.takeWhile (· ≠ '\''), cs.dropWhile (· ≠ '\'') with
    | c :: name, '\'' :: rest => some (c :: name, rest)
    | _, _ => none
  | cs =>
    match cs.takeWhile isNamePart with
    | [] => none
    | name => some (name, cs.dropWhile isNamePart)

/-- What a line assigns, if anything, and the rest after it; `none` if the line is malformed. -/
def readLine (cs : List Char) : Option (Option (String × String) × List Char) := do
  let (name, rest) ← readName (skipExport cs)
  match skipBlanks rest with
  | '=' :: rest =>
    let (value, rest) ← readValue rest
    let rest ← endLine? rest
    some (some (String.ofList name, String.ofList value), rest)
  | rest =>
    let rest ← endLine? rest
    some (none, rest)

def readLines : (lines : Nat) → List Char → List (String × String)
  | 0, _ => []
  | lines + 1, cs =>
    match cs.dropWhile isBlank with
    | [] => []
    | cs =>
      match readLine cs with
      | some (assigned, rest) => assigned.toList ++ readLines lines rest
      | none => readLines lines (skipLine cs)

def dropMark : List Char → List Char
  | '\uFEFF' :: cs => cs
  | cs => cs

end Assignment

/-- The variables that a settings file assigns. A name that is assigned twice keeps its first place
and has its last value. -/
def assignments (cs : List Char) : Environment :=
  (Assignment.readLines (cs.length + 1) (Assignment.dropMark cs)).foldl
    (fun e (name, value) => e.set name value) []

end SeedScript.Settings
