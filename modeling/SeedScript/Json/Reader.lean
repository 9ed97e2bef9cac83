import SeedScript.Identifier
import SeedScript.Json.Basic
import SeedScript.Text.Lines

/-!
# Reading JSON

A reader by recursive descent. It takes the words for numbers that are not finite, and escapes
that name half of a surrogate pair. An error carries the rest of the input at which it was found,
which fixes its position. Two limits are not faults of the text: an integer of more than 4300
digits, and containers inside more containers than there is room for.
-/

namespace SeedScript.Json

inductive Mistake where
  | value
  | propertyName
  | colon
  | comma
  | unterminatedString
  | controlCharacter
  | escape
  | unicodeEscape
  | extraData
  | byteOrderMark
deriving DecidableEq, Repr

def Mistake.message : Mistake → String
  | value => "Expecting value"
  | propertyName => "Expecting property name enclosed in double quotes"
  | colon => "Expecting ':' delimiter"
  | comma => "Expecting ',' delimiter"
  | unterminatedString => "Unterminated string starting at"
  | controlCharacter => "Invalid control character at"
  | escape => "Invalid \\escape"
  | unicodeEscape => "Invalid \\uXXXX escape"
  | extraData => "Extra data"
  | byteOrderMark => "Unexpected UTF-8 BOM (decode using utf-8-sig)"

inductive ReadError where
  | malformed (mistake : Mistake) (rest : List Char)
  | integerTooLong (digits : Nat)
  | nestingTooDeep (container : Kind)
deriving DecidableEq

abbrev Reading (α : Type) := Except ReadError (α × List Char)

def isSpace (c : Char) : Bool :=
  c = ' ' || c = '\t' || c = '\n' || c = '\r'

def skipSpace (cs : List Char) : List Char :=
  cs.dropWhile isSpace

/-! ## Numbers -/

def digitLimit : Nat := 4300

def spanDigits (cs : List Char) : List Char × List Char :=
  (cs.takeWhile Char.isDigit, cs.dropWhile Char.isDigit)

/-- The digits of the integer part: a zero alone, or digits that do not start with one. -/
def readWhole : List Char → List Char × List Char
  | '0' :: cs => (['0'], cs)
  | cs => spanDigits cs

def readFraction : List Char → List Char × List Char
  | '.' :: cs =>
    match spanDigits cs with
    | ([], _) => ([], '.' :: cs)
    | (digits, rest) => ('.' :: digits, rest)
  | cs => ([], cs)

def readExponent : List Char → List Char × List Char
  | [] => ([], [])
  | e :: cs =>
    if e = 'e' ∨ e = 'E' then
      let (sign, digits) :=
        match cs with
        | '-' :: ds => (['-'], ds)
        | '+' :: ds => (['+'], ds)
        | ds => ([], ds)
      match spanDigits digits with
      | ([], _) => ([], e :: cs)
      | (ds, rest) => (e :: sign ++ ds, rest)
    else ([], e :: cs)

def natOfDigits (digits : List Char) : Nat :=
  digits.foldl (fun n c => 10 * n + (c.toNat - 48)) 0

/-- Reads a number without its sign; `start` is the input with it. -/
def readMagnitude (start : List Char) (negative : Bool) (cs : List Char) : Reading Json :=
  match readWhole cs with
  | ([], _) => .error (.malformed .value start)
  | (whole, rest) =>
    let (fraction, rest) := readFraction rest
    let (exponent, rest) := readExponent rest
    if fraction.isEmpty && exponent.isEmpty then
      if digitLimit < whole.length then .error (.integerTooLong whole.length)
      else
        let n : Int := natOfDigits whole
        .ok (.integer (if negative then -n else n), rest)
    else
      let sign := if negative then ['-'] else []
      .ok (.real (String.ofList (sign ++ whole ++ fraction ++ exponent)), rest)

def readNumber : List Char → Reading Json
  | '-' :: cs => readMagnitude ('-' :: cs) true cs
  | cs => readMagnitude cs false cs

/-! ## Strings -/

def codeUnit? (a b c d : Char) : Option Nat :=
  match Identifier.hexValue? a, Identifier.hexValue? b, Identifier.hexValue? c,
    Identifier.hexValue? d with
  | some a, some b, some c, some d => some (4096 * a + 256 * b + 16 * c + d)
  | _, _, _, _ => none

def isHighSurrogate (n : Nat) : Bool :=
  0xD800 ≤ n && n < 0xDC00

def isLowSurrogate (n : Nat) : Bool :=
  0xDC00 ≤ n && n < 0xE000

def joinSurrogates (high low : Nat) : Char :=
  Char.ofNat (0x10000 + 0x400 * (high - 0xD800) + (low - 0xDC00))

def escaped? : Char → Option Char
  | '"' => some '"'
  | '\\' => some '\\'
  | '/' => some '/'
  | 'b' => some '\x08'
  | 'f' => some '\x0c'
  | 'n' => some '\n'
  | 'r' => some '\r'
  | 't' => some '\t'
  | _ => none

/-- The text of code units, where two surrogates that form a pair are one character. There is none
if a surrogate is left alone. -/
def textOfUnits : List Nat → Option (List Char)
  | [] => some []
  | [n] => if isHighSurrogate n || isLowSurrogate n then none else some [Char.ofNat n]
  | n :: m :: rest =>
    if isHighSurrogate n then
      if isLowSurrogate m then (textOfUnits rest).map (joinSurrogates n m :: ·) else none
    else if isLowSurrogate n then none
    else (textOfUnits (m :: rest)).map (Char.ofNat n :: ·)

def consUnit (n : Nat) (r : Reading (List Nat)) : Reading (List Nat) :=
  r.map fun (units, rest) => (n :: units, rest)

/-- Reads the code units of a string after its opening quote; `start` is the input with it. An
escape by number must have a character after its four digits. -/
def readUnits (start : List Char) : List Char → Reading (List Nat)
  | [] => .error (.malformed .unterminatedString start)
  | '"' :: rest => .ok ([], rest)
  | '\\' :: [] => .error (.malformed .unterminatedString start)
  | '\\' :: 'u' :: tail =>
    match tail with
    | a :: b :: c :: d :: rest =>
      if rest.isEmpty then .error (.malformed .unicodeEscape ('u' :: tail))
      else
        match codeUnit? a b c d with
        | none => .error (.malformed .unicodeEscape ('u' :: tail))
        | some n => consUnit n (readUnits start rest)
    | _ => .error (.malformed .unicodeEscape ('u' :: tail))
  | '\\' :: c :: rest =>
    match escaped? c with
    | some e => consUnit e.toNat (readUnits start rest)
    | none => .error (.malformed .escape ('\\' :: c :: rest))
  | c :: rest =>
    if c.toNat < 0x20 then .error (.malformed .controlCharacter (c :: rest))
    else consUnit c.toNat (readUnits start rest)

/-- Reads a string after its opening quote; `none` if it denotes no text. -/
def readString (start rest : List Char) : Reading (Option String) :=
  (readUnits start rest).map fun (units, rest) => ((textOfUnits units).map String.ofList, rest)

/-! ## Values -/

def nestingLimit : Nat := 987

def readWord? (word : String) (cs : List Char) : Option (List Char) :=
  if word.toList.isPrefixOf cs then some (cs.drop word.length) else none

def constants : List (String × Json) := [
  ("null", .null), ("true", .boolean true), ("false", .boolean false), ("NaN", .real "NaN"),
  ("Infinity", .real "Infinity"), ("-Infinity", .real "-Infinity")]

def readConstant? (cs : List Char) : Option (Json × List Char) :=
  constants.findSome? fun (word, value) => (readWord? word cs).map (value, ·)

mutual

/-- Reads one value. Every value takes a character, so `fuel` above the length of the input is
never used up; `room` is the number of containers that can still be entered. -/
def readValue : (fuel room : Nat) → List Char → Reading Json
  | 0, _, cs => .error (.malformed .value cs)
  | fuel + 1, room, cs =>
    match cs with
    | [] => .error (.malformed .value [])
    | '"' :: rest =>
      match readString cs rest with
      | .error e => .error e
      | .ok (text, rest) => .ok (.string text, rest)
    | '[' :: rest =>
      match room with
      | 0 => .error (.nestingTooDeep .array)
      | room + 1 =>
        match skipSpace rest with
        | ']' :: rest => .ok (.array [], rest)
        | rest =>
          match readItems fuel room rest with
          | .error e => .error e
          | .ok (items, rest) => .ok (.array items, rest)
    | '{' :: rest =>
      match room with
      | 0 => .error (.nestingTooDeep .object)
      | room + 1 =>
        match skipSpace rest with
        | '}' :: rest => .ok (.object [], rest)
        | rest =>
          match readMembers fuel room rest with
          | .error e => .error e
          | .ok (members, rest) => .ok (.object members, rest)
    | cs =>
      match readConstant? cs with
      | some r => .ok r
      | none => readNumber cs

def readItems : (fuel room : Nat) → List Char → Reading (List Json)
  | 0, _, cs => .error (.malformed .value cs)
  | fuel + 1, room, cs =>
    match readValue fuel room cs with
    | .error e => .error e
    | .ok (item, rest) =>
      match skipSpace rest with
      | ']' :: rest => .ok ([item], rest)
      | ',' :: rest =>
        match readItems fuel room (skipSpace rest) with
        | .error e => .error e
        | .ok (items, rest) => .ok (item :: items, rest)
      | rest => .error (.malformed .comma rest)

def readMembers : (fuel room : Nat) → List Char → Reading Members
  | 0, _, cs => .error (.malformed .value cs)
  | fuel + 1, room, cs =>
    match cs with
    | '"' :: rest =>
      match readString cs rest with
      | .error e => .error e
      | .ok (name, rest) =>
        match skipSpace rest with
        | ':' :: rest =>
          match readValue fuel room (skipSpace rest) with
          | .error e => .error e
          | .ok (value, rest) =>
            match skipSpace rest with
            | '}' :: rest => .ok ([(name, value)], rest)
            | ',' :: rest =>
              match readMembers fuel room (skipSpace rest) with
              | .error e => .error e
              | .ok (members, rest) => .ok ((name, value) :: members, rest)
            | rest => .error (.malformed .comma rest)
        | rest => .error (.malformed .colon rest)
    | cs => .error (.malformed .propertyName cs)

end

def read (cs : List Char) : Except ReadError Json :=
  match cs with
  | '\uFEFF' :: _ => .error (.malformed .byteOrderMark cs)
  | _ =>
    match readValue (2 * cs.length + 2) nestingLimit (skipSpace cs) with
    | .error e => .error e
    | .ok (value, rest) =>
      match skipSpace rest with
      | [] => .ok value
      | rest => .error (.malformed .extraData rest)

end SeedScript.Json
