import SeedScript.Proofs.Sql.Reading

/-!
# Names read back

A reader of statements takes a name from the head of a text: a word of lower case letters, digits and
underscores, or what stands between double quotes. Main statement: what is written for a name is read as
one token, which stands for that name, unless the name is a word with a line feed behind it. Such a name is
written bare, and the reader stops in front of the line feed.
-/

namespace SeedScript.Sql

open Reader (EndsToken Reads)

/-- A name that needs no quotes: lower case letters, digits and underscores, and no digit in front. -/
def IsWord (cs : List Char) : Prop :=
  ∃ c rest, cs = c :: rest ∧ Reader.isBare true c = true ∧ ∀ d ∈ rest, Reader.isBare false d = true

def IsWordLine (n : String) : Prop :=
  ∃ word : String, IsWord word.toList ∧ n = word ++ "\n"

theorem isNameStart_of_isBare {c : Char} (h : Reader.isBare true c = true) : isNameStart c = true := by
  simp only [Reader.isBare, Bool.or_eq_true, decide_eq_true_eq, Bool.not_true, Bool.false_and,
    Bool.false_eq_true, or_false, Reader.isLower_iff] at h
  simpa [isNameStart] using h

theorem isNamePart_of_isBare {c : Char} (h : Reader.isBare false c = true) : isNamePart c = true := by
  simp only [Reader.isBare, Bool.or_eq_true, decide_eq_true_eq, Bool.not_false, Bool.true_and,
    Reader.isLower_iff] at h
  rcases h with h | h
  · simpa [isNamePart, isNameStart] using Or.inl h
  · have hRange : '0' ≤ c ∧ c ≤ '9' := by simpa [Char.isDigit, Char.le_def] using h
    simp [isNamePart, hRange]

theorem isBareTail_append {cs rest : List Char} (h : ∀ c ∈ cs, isNamePart c = true)
    (hRest : isBareTail rest = true) : isBareTail (cs ++ rest) = true := by
  induction cs with
  | nil => exact hRest
  | cons c cs ih =>
    obtain ⟨hc, hcs⟩ := List.forall_mem_cons.mp h
    rw [List.cons_append, isBareTail, hc, ih hcs]
    · rfl
    · rintro rfl
      cases hc

namespace IsWord

variable {word : String}

theorem isBareName_append (h : IsWord word.toList) (ending : String)
    (hEnding : isBareTail ending.toList = true) : isBareName (word ++ ending) = true := by
  obtain ⟨c, rest, hWord, hc, hRest⟩ := h
  have hTail := isBareTail_append (fun d hd => isNamePart_of_isBare (hRest d hd)) hEnding
  rw [isBareName, String.toList_append, hWord, List.cons_append]
  simp only [isNameStart_of_isBare hc, hTail, Bool.and_self]

theorem isBareName (h : IsWord word.toList) : Sql.isBareName word = true := by
  have hEmpty := h.isBareName_append "" rfl
  rwa [String.append_empty] at hEmpty

theorem getLast?_ne (h : IsWord word.toList) : word.toList.getLast? ≠ some '\n' := by
  obtain ⟨c, rest, hWord, hc, hRest⟩ := h
  intro hLast
  have hMem : '\n' ∈ c :: rest := by
    rw [← hWord]
    exact List.mem_of_getLast? hLast
  rcases List.mem_cons.mp hMem with rfl | hMem
  · cases hc
  · cases hRest _ hMem

end IsWord

theorem isWordLine_of_isBareName {n : String} (h : isBareName n = true)
    (hLast : n.toList.getLast? = some '\n') : IsWordLine n := by
  rw [isBareName] at h
  cases hn : n.toList with
  | nil => simp [hn] at h
  | cons c cs =>
    simp only [hn, Bool.and_eq_true] at h
    obtain ⟨body, hBody, hcs⟩ := exists_of_isBareTail h.2
    have hWord : IsWord (c :: body) :=
      ⟨c, body, rfl, Reader.isBare_of_isNameStart h.1 true,
        fun d hd => Reader.isBare_of_isNamePart (hBody d hd)⟩
    rcases hcs with rfl | rfl
    · exact absurd hLast (IsWord.getLast?_ne (by rwa [hn]))
    · refine ⟨String.ofList (c :: body), by rwa [String.toList_ofList], ?_⟩
      rw [← String.toList_inj, String.toList_append, String.toList_ofList, hn]
      rfl

/-- Among the names that are written bare, these are the ones with a line feed at the end. -/
theorem isWordLine_iff {n : String} :
    IsWordLine n ↔ isBareName n = true ∧ n.toList.getLast? = some '\n' := by
  constructor
  · rintro ⟨word, hWord, rfl⟩
    exact ⟨hWord.isBareName_append "\n" rfl, by simp⟩
  · rintro ⟨hBare, hLast⟩
    exact isWordLine_of_isBareName hBare hLast

instance (n : String) : Decidable (IsWordLine n) :=
  decidable_of_iff _ isWordLine_iff.symm

/-- Of a word with a line feed behind it the reader takes the word. -/
theorem name_wordLine {word : String} (h : IsWord word.toList) (rest : List Char) :
    Reader.name ((quoteName (word ++ "\n")).toList ++ rest) = some (word, '\n' :: rest) := by
  have hQuote : quoteName (word ++ "\n") = word ++ "\n" := by
    simp [quoteName, h.isBareName_append "\n" rfl]
  have hRead := Reader.reads_bareName h.isBareName h.getLast?_ne [] ('\n' :: rest) rfl
    (Reader.endsToken_cons (by simp) rest)
  have hText : (word ++ "\n").toList ++ rest = [] ++ (word.toList ++ '\n' :: rest) := by simp
  rw [hQuote, hText, hRead]

theorem reads_quoteName_iff {n : String} {force : Bool} :
    Reads Reader.name (quoteName n force) n ↔ force = true ∨ ¬ IsWordLine n := by
  constructor
  · intro hReads
    rw [or_iff_not_imp_left, Bool.not_eq_true]
    rintro rfl ⟨word, hWord, rfl⟩
    have hSpan := hReads [] [] rfl Reader.endsToken_nil
    rw [List.nil_append, name_wordLine hWord, Option.some_inj, Prod.mk.injEq] at hSpan
    cases hSpan.2
  · rintro (rfl | hLine)
    · exact Reader.reads_delimitName n
    · cases force with
      | true => exact Reader.reads_delimitName n
      | false =>
        unfold quoteName
        split
        · next hBare =>
          have hBare : isBareName n = true := by simpa using hBare
          exact Reader.reads_bareName hBare fun hLast => hLine (isWordLine_of_isBareName hBare hLast)
        · exact Reader.reads_delimitName n

/-- The name that a text starts with, as a reader takes it. -/
def denoted? (text : String) : Option String :=
  (Reader.name text.toList).map Prod.fst

theorem denoted?_of_reads {text n : String} (h : Reads Reader.name text n) : denoted? text = some n := by
  have hSpan := h [] [] rfl Reader.endsToken_nil
  rw [List.nil_append, List.append_nil] at hSpan
  rw [denoted?, hSpan, Option.map_some]

/-- What is written for a name is read as one token for that name, and different names are told apart,
unless a name is a word with a line feed behind it and is not forced into quotes. Of such a name the line
feed is left over, and it is taken for the word. -/
theorem quoteName_readsBack (n : String) (force : Bool) :
    (Reads Reader.name (quoteName n force) n ↔ force = true ∨ ¬ IsWordLine n) ∧
    (IsWordLine n → ∃ word, n = word ++ "\n" ∧ ∀ rest,
      Reader.name ((quoteName n).toList ++ rest) = some (word, '\n' :: rest)) ∧
    ∀ m force', (force = true ∨ ¬ IsWordLine n) → (force' = true ∨ ¬ IsWordLine m) →
      denoted? (quoteName n force) = denoted? (quoteName m force') → n = m := by
  refine ⟨reads_quoteName_iff, ?_, ?_⟩
  · rintro ⟨word, hWord, rfl⟩
    exact ⟨word, rfl, name_wordLine hWord⟩
  · intro m force' hn hm hSame
    rw [denoted?_of_reads (reads_quoteName_iff.mpr hn), denoted?_of_reads (reads_quoteName_iff.mpr hm),
      Option.some_inj] at hSame
    exact hSame

/-- A quote at the end with a line feed behind it, against the same name without it. -/
theorem quoteName_readsBack_quotes :
    Reads Reader.name "\"a\"\"\n\"" "a\"\n" ∧
      denoted? (quoteName "a\"\n") ≠ denoted? (quoteName "a\n" true) ∧
      Reader.name ((quoteName "a\n").toList ++ [';']) = some ("a", ['\n', ';']) := by
  have hQuoted : ¬ IsWordLine "a\"\n" := by decide
  have hLine : IsWordLine "a\n" := by decide
  obtain ⟨hReads, -, hApart⟩ := quoteName_readsBack "a\"\n" false
  obtain ⟨-, hLeft, -⟩ := quoteName_readsBack "a\n" false
  refine ⟨hReads.mpr (.inr hQuoted), ?_, ?_⟩
  · intro hSame
    exact absurd (hApart _ _ (.inr hQuoted) (.inl rfl) hSame) (by decide)
  · obtain ⟨word, hWord, hName⟩ := hLeft hLine
    obtain rfl : "a" = word := String.append_left_inj "\n" |>.mp hWord
    exact hName [';']

/-- A word with a line feed behind it is read as the word, so two names denote the same. -/
theorem quoteName_merges :
    ¬ Reads Reader.name (quoteName "a\n") "a\n" ∧
      denoted? (quoteName "a\n") = denoted? (quoteName "a") := by
  refine ⟨?_, by decide⟩
  rw [reads_quoteName_iff]
  decide

end SeedScript.Sql
