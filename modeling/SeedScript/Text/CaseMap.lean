/-!
# Case maps

A case map sends each character to one or more characters. It is given by runs of characters
that share a shift, and by a list of the characters with a longer image; every other character
stays as it is.
-/

namespace SeedScript.Text

/-- The characters `first`, `first + stride`, … up to `last`, all moved by `shift`. -/
structure CaseRun where
  first : Nat
  last : Nat
  stride : Nat
  shift : Int

namespace CaseRun

def covers (r : CaseRun) (n : Nat) : Bool :=
  r.first ≤ n && n ≤ r.last && (n - r.first) % r.stride == 0

def image (r : CaseRun) (n : Nat) : Nat :=
  (n + r.shift).toNat

end CaseRun

structure CaseMap where
  runs : List CaseRun
  expansions : List (Nat × List Nat)

namespace CaseMap

def onChar (m : CaseMap) (c : Char) : List Char :=
  match m.runs.find? (·.covers c.toNat) with
  | some r => [Char.ofNat (r.image c.toNat)]
  | none =>
    match m.expansions.lookup c.toNat with
    | some image => image.map Char.ofNat
    | none => [c]

def apply (m : CaseMap) (s : String) : String :=
  String.ofList (s.toList.flatMap m.onChar)

end CaseMap
end SeedScript.Text
