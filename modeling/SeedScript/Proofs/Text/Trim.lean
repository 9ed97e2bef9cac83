import SeedScript.Text.Blank
import SeedScript.Text.Join
import Mathlib.Data.List.DropRight

/-!
# Trimmed texts

A trimmed list is one that neither starts nor ends with an item of the trimmed class. What is trimmed
of a wider class is trimmed of a narrower one, and items of the class in front of it are trimmed away.
The ends of a join are those of its first and its last text, and its
characters are those of its texts and of the separator.
-/

namespace SeedScript.Text

variable {α : Type} {p q : α → Bool}

theorem head?_trimList_not {xs : List α} {x : α} (h : (trimList p xs).head? = some x) :
    p x = false := by
  obtain ⟨rest, hRest⟩ : trimList p xs <+: xs.dropWhile p := List.rdropWhile_prefix p _
  have hHead : (xs.dropWhile p).head? = some x := by
    rw [← hRest, List.head?_append, h, Option.some_or]
  simpa [hHead] using List.head?_dropWhile_not p xs

theorem getLast?_trimList_not {xs : List α} {x : α} (h : (trimList p xs).getLast? = some x) :
    p x = false := by
  rw [trimList, dropEndWhile, List.getLast?_reverse] at h
  simpa [h] using List.head?_dropWhile_not p (xs.dropWhile p).reverse

theorem trimList_eq_self {xs : List α} (hHead : ∀ x, xs.head? = some x → p x = false)
    (hLast : ∀ x, xs.getLast? = some x → p x = false) : trimList p xs = xs := by
  have hDrop : xs.dropWhile p = xs := by
    cases xs with
    | nil => rfl
    | cons x xs => simp [hHead x rfl]
  rw [trimList, hDrop]
  apply List.rdropWhile_eq_self_iff.mpr
  intro hne
  simp [hLast _ (List.getLast?_eq_some_getLast hne)]

theorem trimList_trimList (h : ∀ x, p x = true → q x = true) (xs : List α) :
    trimList p (trimList q xs) = trimList q xs := by
  have hNot : ∀ x, q x = false → p x = false := by
    intro x hx
    by_contra hp
    rw [h x (by simpa using hp)] at hx
    cases hx
  exact trimList_eq_self (fun x hx => hNot x (head?_trimList_not hx))
    (fun x hx => hNot x (getLast?_trimList_not hx))

theorem trimList_append_left {xs : List α} (h : ∀ x ∈ xs, p x = true) (ys : List α) :
    trimList p (xs ++ ys) = trimList p ys := by
  rw [trimList, List.dropWhile_append_of_pos h, trimList]

/-- What is trimmed away stands at the two ends. -/
theorem exists_trimList (p : α → Bool) (xs : List α) : ∃ front back,
    xs = front ++ trimList p xs ++ back ∧ (∀ x ∈ front, p x = true) ∧ ∀ x ∈ back, p x = true := by
  refine ⟨xs.takeWhile p, (xs.dropWhile p).rtakeWhile p, ?_, fun x hx => ?_, fun x hx => ?_⟩
  · have hBack : trimList p xs ++ (xs.dropWhile p).rtakeWhile p = xs.dropWhile p := by
      rw [trimList, dropEndWhile, List.rtakeWhile, ← List.reverse_append, List.takeWhile_append_dropWhile,
        List.reverse_reverse]
    rw [List.append_assoc, hBack, List.takeWhile_append_dropWhile]
  · exact List.mem_takeWhile_imp hx
  · exact List.mem_rtakeWhile_imp hx

theorem length_trimList_le (p : α → Bool) (xs : List α) : (trimList p xs).length ≤ xs.length := by
  obtain ⟨front, back, hSplit, -, -⟩ := exists_trimList p xs
  have hLength := congrArg List.length hSplit
  rw [List.length_append, List.length_append] at hLength
  omega

theorem count_trimList [BEq α] [LawfulBEq α] {x : α} (hx : p x = false) (xs : List α) :
    (trimList p xs).count x = xs.count x := by
  have hNone : ∀ ys : List α, (∀ y ∈ ys, p y = true) → ys.count x = 0 := by
    intro ys hys
    rw [List.count_eq_zero]
    intro hMem
    rw [hys x hMem] at hx
    cases hx
  obtain ⟨front, back, hSplit, hFront, hBack⟩ := exists_trimList p xs
  have hCount := congrArg (List.count x) hSplit
  rw [List.count_append, List.count_append, hNone front hFront, hNone back hBack] at hCount
  omega

/-- A text that starts and ends with other characters has no white space around it. -/
theorem strip_eq_self {s : String} {c d : Char} (hHead : s.toList.head? = some c)
    (hc : isBlank c = false) (hLast : s.toList.getLast? = some d) (hd : isBlank d = false) :
    strip s = s := by
  rw [strip, trimList_eq_self, String.ofList_toList]
  · intro x hx
    rw [hHead] at hx
    cases hx
    exact hc
  · intro x hx
    rw [hLast] at hx
    cases hx
    exact hd

theorem head?_append_of_eq {s : String} {c : Char} (h : s.toList.head? = some c) (t : String) :
    (s ++ t).toList.head? = some c := by
  rw [String.toList_append, List.head?_append, h, Option.some_or]

theorem getLast?_append_of_eq (s : String) {t : String} {c : Char}
    (h : t.toList.getLast? = some c) : (s ++ t).toList.getLast? = some c := by
  rw [String.toList_append, List.getLast?_append, h, Option.some_or]

theorem head?_join {separator x : String} {xs : List String} {c : Char}
    (h : x.toList.head? = some c) : (join separator (x :: xs)).toList.head? = some c := by
  cases xs with
  | nil => exact h
  | cons y ys =>
    rw [join_cons_cons]
    exact head?_append_of_eq (head?_append_of_eq h _) _

theorem getLast?_join {separator : String} {xs : List String} {c : Char} (x : String)
    (hx : xs.getLast? = some x) (h : x.toList.getLast? = some c) :
    (join separator xs).toList.getLast? = some c := by
  induction xs with
  | nil => cases hx
  | cons y ys ih =>
    cases ys with
    | nil =>
      cases hx
      exact h
    | cons z zs =>
      rw [join_cons_cons]
      exact getLast?_append_of_eq _ (ih (by simpa using hx))

theorem mem_join_iff {separator : String} {c : Char} (hc : c ∉ separator.toList) {xs : List String} :
    c ∈ (join separator xs).toList ↔ ∃ x ∈ xs, c ∈ x.toList := by
  induction xs with
  | nil => simp
  | cons x xs ih =>
    cases xs with
    | nil => simp
    | cons y ys =>
      rw [join_cons_cons, String.toList_append, String.toList_append, List.mem_append,
        List.mem_append, ih, List.exists_mem_cons_iff (c ∈ ·.toList) x]
      constructor
      · rintro ((h | h) | h)
        · exact .inl h
        · exact absurd h hc
        · exact .inr h
      · rintro (h | h)
        · exact .inl (.inl h)
        · exact .inr h

end SeedScript.Text
