import SeedScript.Text.Quoted

/-!
# UTF-8

The bytes of a text, and the text of bytes. Bytes that are no text have a first fault: a byte
that starts no character, a byte that does not continue one, or an end inside one.
-/

namespace SeedScript.Text

namespace Utf8

def encodeChars (cs : List Char) : List UInt8 :=
  cs.flatMap String.utf8EncodeChar

def encode (s : String) : List UInt8 :=
  encodeChars s.toList

inductive Reason where
  | invalidStart
  | invalidContinuation
  | unexpectedEnd
deriving DecidableEq, Repr

/-- The first bytes that belong to no text: positions `start` up to, but not including, `stop`. -/
structure Fault where
  start : Nat
  stop : Nat
  byte : UInt8
  reason : Reason
deriving DecidableEq, Repr

namespace Fault

def Reason.message : Reason → String
  | .invalidStart => "invalid start byte"
  | .invalidContinuation => "invalid continuation byte"
  | .unexpectedEnd => "unexpected end of data"

def message (f : Fault) : String :=
  (if f.stop = f.start + 1 then
    "'utf-8' codec can't decode byte 0x" ++ String.ofList (hexDigits 2 f.byte.toNat) ++
      " in position " ++ toString f.start
   else
    "'utf-8' codec can't decode bytes in position " ++ toString f.start ++ "-" ++
      toString (f.stop - 1)) ++
    ": " ++ Reason.message f.reason

end Fault

/-- A character of which some bytes have been read: `tails` more follow, and the next one is from
`low` to `high`. -/
structure Partial where
  start : Nat
  lead : UInt8
  tails : Nat
  low : Nat
  high : Nat
  code : Nat

/-- The character that a byte starts, when it starts one of several bytes at position `start`. -/
def Partial.ofLead? (start : Nat) (lead : UInt8) : Option Partial :=
  let b := lead.toNat
  if 0xC2 ≤ b ∧ b ≤ 0xDF then some ⟨start, lead, 1, 0x80, 0xBF, b - 0xC0⟩
  else if b = 0xE0 then some ⟨start, lead, 2, 0xA0, 0xBF, 0⟩
  else if b = 0xED then some ⟨start, lead, 2, 0x80, 0x9F, 0xD⟩
  else if 0xE1 ≤ b ∧ b ≤ 0xEF then some ⟨start, lead, 2, 0x80, 0xBF, b - 0xE0⟩
  else if b = 0xF0 then some ⟨start, lead, 3, 0x90, 0xBF, 0⟩
  else if 0xF1 ≤ b ∧ b ≤ 0xF3 then some ⟨start, lead, 3, 0x80, 0xBF, b - 0xF0⟩
  else if b = 0xF4 then some ⟨start, lead, 3, 0x80, 0x8F, 4⟩
  else none

/-- Reads the bytes from position `pos` on, inside the given character if there is one. -/
def decodeFrom : Nat → Option Partial → List UInt8 → Except Fault (List Char)
  | _, none, [] => .ok []
  | pos, some p, [] => .error ⟨p.start, pos, p.lead, .unexpectedEnd⟩
  | pos, none, b :: bs =>
    if b.toNat < 0x80 then (decodeFrom (pos + 1) none bs).map (Char.ofNat b.toNat :: ·)
    else
      match Partial.ofLead? pos b with
      | some p => decodeFrom (pos + 1) (some p) bs
      | none => .error ⟨pos, pos + 1, b, .invalidStart⟩
  | pos, some p, b :: bs =>
    if p.low ≤ b.toNat ∧ b.toNat ≤ p.high then
      let code := 64 * p.code + (b.toNat - 0x80)
      if p.tails ≤ 1 then (decodeFrom (pos + 1) none bs).map (Char.ofNat code :: ·)
      else decodeFrom (pos + 1) (some { p with tails := p.tails - 1, low := 0x80, high := 0xBF, code }) bs
    else .error ⟨p.start, pos, p.lead, .invalidContinuation⟩

def decode (bytes : List UInt8) : Except Fault (List Char) :=
  decodeFrom 0 none bytes

end Utf8
end SeedScript.Text
