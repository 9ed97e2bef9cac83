import SeedScript.Identifier
import SeedScript.Proofs.Text.Trim

/-!
# Identifiers and their texts

The digits in the text of an identifier are those of its number to the base 16, and they spell the number
again. There is nothing else in the text but hyphens.
-/

namespace SeedScript.Identifier

/-- The digits of a number to the base 16, as many as the width says. -/
def nibbles : Nat → Nat → List Nat
  | 0, _ => []
  | width + 1, n => nibbles width (n / 16) ++ [n % 16]

theorem hexDigits_eq_map (width n : Nat) :
    Text.hexDigits width n = (nibbles width n).map Text.hexDigit := by
  induction width generalizing n with
  | zero => rfl
  | succ width ih => rw [Text.hexDigits, nibbles, ih, List.map_append, List.map_singleton]

theorem length_nibbles (width n : Nat) : (nibbles width n).length = width := by
  induction width generalizing n with
  | zero => rfl
  | succ width ih => rw [nibbles, List.length_append, ih, List.length_singleton]

theorem lt_of_mem_nibbles {width n d : Nat} (h : d ∈ nibbles width n) : d < 16 := by
  induction width generalizing n with
  | zero => cases h
  | succ width ih =>
    rcases List.mem_append.mp h with h | h
    · exact ih h
    · rw [List.mem_singleton.mp h]
      exact Nat.mod_lt n (by decide)

theorem spell_append_singleton (ds : List Nat) (d : Nat) : spell (ds ++ [d]) = 16 * spell ds + d := by
  simp only [spell, List.foldl_append, List.foldl_cons, List.foldl_nil]

theorem spell_nibbles {width n : Nat} (h : n < Nat.pow 16 width) : spell (nibbles width n) = n := by
  induction width generalizing n with
  | zero =>
    have hZero : n = 0 := Nat.lt_one_iff.mp h
    rw [hZero]
    rfl
  | succ width ih =>
    have hPow : Nat.pow 16 (width + 1) = Nat.pow 16 width * 16 := rfl
    have hQuotient : n / 16 < Nat.pow 16 width := by
      rw [hPow] at h
      exact Nat.div_lt_of_lt_mul (by omega)
    rw [nibbles, spell_append_singleton, ih hQuotient]
    omega

theorem hexValue?_hexDigit {d : Nat} (h : d < 16) : hexValue? (Text.hexDigit d) = some d := by
  have hAll : ∀ d < 16, hexValue? (Text.hexDigit d) = some d := by decide
  exact hAll d h

theorem eq_or_mem_of_mem_hyphenate {lengths : List Nat} {digits : List Char} {c : Char}
    (h : c ∈ hyphenate lengths digits) : c = '-' ∨ c ∈ digits := by
  induction lengths generalizing digits with
  | nil => cases h
  | cons n lengths ih =>
    cases lengths with
    | nil => exact .inr (List.mem_of_mem_take h)
    | cons m lengths =>
      rcases List.mem_append.mp h with h | h
      · exact .inr (List.mem_of_mem_take h)
      · rcases List.mem_cons.mp h with h | h
        · exact .inl h
        · exact (ih h).imp_right List.mem_of_mem_drop

theorem eq_or_hexDigit_of_mem_text {i : Identifier} {c : Char} (h : c ∈ i.text.toList) :
    c = '-' ∨ ∃ d < 16, c = Text.hexDigit d := by
  rw [text, String.toList_ofList, hexDigits_eq_map] at h
  rcases eq_or_mem_of_mem_hyphenate h with h | h
  · exact .inl h
  · obtain ⟨d, hd, rfl⟩ := List.mem_map.mp h
    exact .inr ⟨d, lt_of_mem_nibbles hd, rfl⟩

theorem isBlank_of_mem_text {i : Identifier} {c : Char} (h : c ∈ i.text.toList) :
    Text.isBlank c = false := by
  rcases eq_or_hexDigit_of_mem_text h with rfl | ⟨d, hd, rfl⟩
  · decide
  · have hAll : ∀ d < 16, Text.isBlank (Text.hexDigit d) = false := by decide
    exact hAll d hd

end SeedScript.Identifier
