/-!
# Supplies

A supply hands out the items of an endless sequence one after the other. Identifiers and names
come from supplies, so a run is a function of its inputs and of the sequences given to it.
-/

namespace SeedScript

/-- An endless sequence of items, of which the first `taken` have been handed out. -/
structure Supply (α : Type) where
  item : Nat → α
  taken : Nat := 0

namespace Supply

variable {α : Type}

def drop (s : Supply α) (n : Nat) : Supply α :=
  { s with taken := s.taken + n }

/-- The item that is handed out after `n` more. -/
def get (s : Supply α) (n : Nat) : α :=
  s.item (s.taken + n)

/-- The given items, and then those of `rest`, which is told the position in the whole. -/
def ofList (items : List α) (rest : Nat → α) : Supply α where
  item n := items.getD n (rest n)

@[simp] theorem drop_zero (s : Supply α) : s.drop 0 = s := rfl

@[simp] theorem drop_drop (s : Supply α) (m n : Nat) : (s.drop m).drop n = s.drop (m + n) := by
  simp [drop, Nat.add_assoc]

@[simp] theorem get_drop (s : Supply α) (m n : Nat) : (s.drop m).get n = s.get (m + n) := by
  simp [get, drop, Nat.add_assoc]

end Supply
end SeedScript
