/-!
# Joining texts

One recursion puts a separator between consecutive texts; all lists in statements, scripts and
messages are joined by it. Two more operations rewrite a text from left to right.
-/

namespace SeedScript.Text

def join (separator : String) : List String → String
  | [] => ""
  | [s] => s
  | s :: t :: rest => s ++ separator ++ join separator (t :: rest)

@[simp] theorem join_nil (separator : String) : join separator [] = "" := rfl

@[simp] theorem join_singleton (separator s : String) : join separator [s] = s := rfl

theorem join_cons_cons (separator s t : String) (rest : List String) :
    join separator (s :: t :: rest) = s ++ separator ++ join separator (t :: rest) := rfl

def substitute (old : Char) (new : String) (s : String) : String :=
  String.ofList (s.toList.flatMap fun c => if c = old then new.toList else [c])

/-- A text without a word, when the first `skip` characters belong to an occurrence in front. -/
def removeFrom (word : List Char) : Nat → List Char → List Char
  | _, [] => []
  | skip + 1, _ :: cs => removeFrom word skip cs
  | 0, c :: cs =>
    if word.isPrefixOf (c :: cs) then removeFrom word (word.length - 1) cs
    else c :: removeFrom word 0 cs

/-- A text without the occurrences of a word, of which one starts where the last has ended. -/
def remove (word cs : List Char) : List Char :=
  removeFrom word 0 cs

/-- A text that lacks a character of the word is left as it is. -/
theorem remove_of_not_mem {word cs : List Char} {c : Char} (hWord : c ∈ word) (h : c ∉ cs) :
    remove word cs = cs := by
  unfold remove
  induction cs with
  | nil => rfl
  | cons d ds ih =>
    rw [removeFrom, if_neg, ih fun hMem => h (List.mem_cons_of_mem _ hMem)]
    intro hPrefix
    exact h ((List.isPrefixOf_iff_prefix.mp hPrefix).subset hWord)

end SeedScript.Text
