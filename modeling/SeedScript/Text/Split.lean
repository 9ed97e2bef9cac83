/-!
# Splitting texts

A text cut at every separator. There is one piece more than there are separators, so pieces can be
empty.
-/

namespace SeedScript.Text

def splitList {α : Type} (p : α → Bool) : List α → List (List α)
  | [] => [[]]
  | x :: xs =>
    if p x then [] :: splitList p xs
    else
      match splitList p xs with
      | [] => [[x]]
      | piece :: pieces => (x :: piece) :: pieces

theorem splitList_ne_nil {α : Type} (p : α → Bool) (xs : List α) : splitList p xs ≠ [] := by
  cases xs with
  | nil => simp [splitList]
  | cons x xs =>
    unfold splitList
    split
    · simp
    · split <;> simp

def split (separator : Char) (s : String) : List String :=
  (splitList (· = separator) s.toList).map String.ofList

end SeedScript.Text
