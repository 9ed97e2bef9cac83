import SeedScript.Proofs.Sql.Insertion

/-!
# Escapes undone

Replacing goes through a text from the left and takes an occurrence wherever one starts. In a text whose
quotes are doubled it finds each double and nothing else, however many quotes stand together, because it
never starts inside a double. Main statement: putting one quote for two undoes the escape, removing the
doubles leaves no quote, and the escape goes text by text and changes every text that has a quote.
-/

namespace SeedScript

namespace Text

/-- A text with `new` for each occurrence of `old`, when the first `skip` characters belong to an
occurrence in front. -/
def replaceFrom (old new : List Char) : Nat → List Char → List Char
  | _, [] => []
  | skip + 1, _ :: cs => replaceFrom old new skip cs
  | 0, c :: cs =>
    if old.isPrefixOf (c :: cs) then new ++ replaceFrom old new (old.length - 1) cs
    else c :: replaceFrom old new 0 cs

/-- Puts `new` for each occurrence of `old`, of which one starts where the last has ended. What is
replaced has at least one character. -/
def replace (old new s : String) : String :=
  String.ofList (replaceFrom old.toList new.toList 0 s.toList)

section Replace

variable {old : List Char} {q c : Char}

theorem replaceFrom_length_append (old new front cs : List Char) :
    replaceFrom old new front.length (front ++ cs) = replaceFrom old new 0 cs := by
  induction front with
  | nil => rfl
  | cons c front ih => exact ih

theorem replaceFrom_occurrence (hOld : old ≠ []) (new cs : List Char) :
    replaceFrom old new 0 (old ++ cs) = new ++ replaceFrom old new 0 cs := by
  cases old with
  | nil => exact absurd rfl hOld
  | cons c rest =>
    have hPrefix : (c :: rest).isPrefixOf (c :: (rest ++ cs)) = true :=
      List.isPrefixOf_iff_prefix.mpr (List.prefix_append (c :: rest) cs)
    rw [List.cons_append, replaceFrom, if_pos hPrefix, List.length_cons, Nat.add_sub_cancel,
      replaceFrom_length_append]

theorem replaceFrom_other {cs : List Char} (h : ¬ old <+: c :: cs) (new : List Char) :
    replaceFrom old new 0 (c :: cs) = c :: replaceFrom old new 0 cs := by
  rw [replaceFrom, if_neg (mt List.isPrefixOf_iff_prefix.mp h)]

/-- Of three quotes together the first two are taken. -/
example : replace "\'\'" "\"" "a\'\'\'b" = "a\"\'b" := by decide +kernel

theorem not_prefix_of_ne (h : c ≠ q) (qs cs : List Char) : ¬ q :: qs <+: c :: cs :=
  fun hPrefix => h (List.cons_prefix_cons.mp hPrefix).1.symm

/-- To substitute a character is to replace the text of that character. -/
theorem substitute_eq_replace (q : Char) (new s : String) :
    substitute q new s = replace (String.singleton q) new s := by
  rw [substitute, replace, String.toList_singleton]
  congr 1
  induction s.toList with
  | nil => rfl
  | cons c cs ih =>
    rw [List.flatMap_cons, ih]
    by_cases hc : c = q
    · subst hc
      rw [if_pos rfl]
      exact (replaceFrom_occurrence (List.cons_ne_nil c []) new.toList cs).symm
    · rw [if_neg hc, replaceFrom_other (not_prefix_of_ne hc [] cs), List.singleton_append]

variable {double : String} (hDouble : double.toList = [q, q])
include hDouble

/-- Where a character has been doubled, the doubles are what is found of it. -/
theorem replace_substitute (new s : String) :
    replace double new (substitute q double s) = substitute q new s := by
  rw [replace, substitute, substitute, String.toList_ofList, hDouble]
  congr 1
  -- by the text before doubling, so that the search always stands between two of its characters
  induction s.toList with
  | nil => rfl
  | cons c cs ih =>
    rw [List.flatMap_cons, List.flatMap_cons]
    by_cases hc : c = q
    · rw [if_pos hc, if_pos hc, replaceFrom_occurrence (List.cons_ne_nil q [q]), ih]
    · rw [if_neg hc, if_neg hc, List.singleton_append, List.singleton_append,
        replaceFrom_other (not_prefix_of_ne hc [q] _), ih]

theorem count_substitute (s : String) :
    (substitute q double s).toList.count q = 2 * s.toList.count q := by
  rw [substitute, String.toList_ofList, hDouble]
  induction s.toList with
  | nil => rfl
  | cons c cs ih =>
    rw [List.flatMap_cons, List.count_append, ih]
    by_cases hc : c = q
    · subst hc
      rw [if_pos rfl, List.count_cons_self, List.count_cons_self, List.count_cons_self,
        List.count_nil]
      omega
    · rw [if_neg hc, List.count_cons_of_ne hc, List.count_cons_of_ne hc, List.count_nil]
      omega

end Replace

theorem substitute_self (q : Char) (s : String) : substitute q (String.singleton q) s = s := by
  have hStay : ∀ c, (if c = q then [q] else [c]) = [c] := by
    intro c
    split
    · next h => rw [h]
    · rfl
  simp only [substitute, String.toList_singleton, hStay, List.flatMap_singleton',
    String.ofList_toList]

theorem not_mem_substitute_empty (q : Char) (s : String) : q ∉ (substitute q "" s).toList := by
  rw [substitute, String.toList_ofList]
  intro hMem
  obtain ⟨c, -, hc⟩ := List.mem_flatMap.mp hMem
  split at hc
  · cases hc
  · next hne => exact hne (List.mem_singleton.mp hc).symm

theorem substitute_append (q : Char) (new s t : String) :
    substitute q new (s ++ t) = substitute q new s ++ substitute q new t := by
  rw [substitute, String.toList_append, List.flatMap_append, String.ofList_append, substitute,
    substitute]

end Text

namespace Sql

theorem count_escape (t : String) : (escape t).toList.count '\'' = 2 * t.toList.count '\'' :=
  Text.count_substitute rfl t

theorem escape_eq_self_iff (t : String) : escape t = t ↔ '\'' ∉ t.toList := by
  constructor
  · intro h
    have hCount := count_escape t
    rw [h] at hCount
    exact List.count_eq_zero.mp (by omega)
  · exact escape_of_not_mem

theorem quote_mem_escape_iff (t : String) : '\'' ∈ (escape t).toList ↔ '\'' ∈ t.toList := by
  have hCount := count_escape t
  rw [← List.count_pos_iff, ← List.count_pos_iff]
  omega

/-- The escape is a replacement, and replacing takes it back. -/
theorem escape_undone (t : String) :
    escape t = Text.replace "\'" "\'\'" t ∧
      Text.replace "\'\'" "\'" (escape t) = t ∧
      '\'' ∉ (Text.replace "\'\'" "" (escape t)).toList ∧
      (∀ u, escape (t ++ u) = escape t ++ escape u) ∧
      (escape t = t ↔ '\'' ∉ t.toList) ∧
      (escape (escape t) ≠ escape t ↔ '\'' ∈ t.toList) := by
  refine ⟨?_, ?_, ?_, ?_, escape_eq_self_iff t, ?_⟩
  · exact Text.substitute_eq_replace '\'' "\'\'" t
  · rw [escape, Text.replace_substitute rfl]
    exact Text.substitute_self '\'' t
  · rw [escape, Text.replace_substitute rfl]
    exact Text.not_mem_substitute_empty '\'' t
  · exact Text.substitute_append '\'' "\'\'" t
  · rw [Ne, escape_eq_self_iff, not_not, quote_mem_escape_iff]

end Sql
end SeedScript
