import SeedScript.Proofs.Sql.Statements
import SeedScript.Sql.Insert

/-!
# Whole texts

Literals and names are whole texts, whatever they hold, because what a quote opens is closed by the
quote that belongs to it. Whole texts with ordinary characters between them are whole again. Inside of a
body a quote does not quote, and a name that stands there has to leave the reader in the body.
-/

namespace SeedScript.Sql

namespace Mode

theorem advance_substitute {m half : Mode} {q : Char} {double : String}
    (hDouble : double.toList = [q, q]) (hInside : m.isOutside = false) (hq : q ≠ ';')
    (hHalf : m.next q = half) (hBack : half.next q = m) (hStay : ∀ c, c ≠ q → m.next c = m)
    (s : String) : m.advance (Text.substitute q double s).toList = some m := by
  rw [Text.substitute, String.toList_ofList, hDouble]
  induction s.toList with
  | nil => rfl
  | cons c cs ih =>
    by_cases hc : c = q
    · subst hc
      simp only [List.flatMap_cons, if_true, List.cons_append, List.nil_append, advance, hInside,
        Bool.and_false, Bool.false_eq_true, if_false, hHalf, hBack, hq, decide_false,
        Bool.false_and]
      exact ih
    · simp only [List.flatMap_cons, hc, if_false, List.cons_append, List.nil_append, advance,
        hInside, Bool.and_false, Bool.false_eq_true, hStay c hc]
      exact ih

end Mode

/-- A text between quotes, with the quotes in it doubled, is whole. -/
theorem isWhole_enclosed {m half : Mode} {q : Char} {double : String}
    (hDouble : double.toList = [q, q]) (hInside : m.isOutside = false) (hq : q ≠ ';')
    (hEnter : Mode.plain.next q = m) (hHalf : m.next q = half) (hBack : half.next q = m)
    (hOutside : half.isOutside = true) (hStay : ∀ c, c ≠ q → m.next c = m) (s : String) :
    IsWhole (q :: ((Text.substitute q double s).toList ++ [q])) := by
  refine ⟨half, ?_, hOutside⟩
  have hBody := Mode.advance_substitute hDouble hInside hq hHalf hBack hStay s
  simp only [Mode.advance, hq, decide_false, Bool.false_and, Bool.false_eq_true, if_false, hEnter]
  rw [Mode.advance_append_of_eq hBody]
  simp [Mode.advance, hq, hHalf]

theorem isWhole_quoteLiteral (s : String) : IsWhole (quoteLiteral s).toList := by
  have hStay : ∀ c, c ≠ '\'' → Mode.literal.next c = .literal := by
    intro c hc
    simp [Mode.next, hc]
  have hDouble : "\'\'".toList = ['\'', '\''] := rfl
  have h := isWhole_enclosed hDouble rfl (by decide) rfl rfl rfl rfl hStay s
  simpa [quoteLiteral, escape] using h

theorem isWhole_delimitName (n : String) : IsWhole (delimitName n).toList := by
  have hStay : ∀ c, c ≠ '"' → Mode.name.next c = .name := by
    intro c hc
    simp [Mode.next, hc]
  have hDouble : "\"\"".toList = ['"', '"'] := rfl
  have h := isWhole_enclosed hDouble rfl (by decide) rfl rfl rfl rfl hStay n
  simpa [delimitName] using h

theorem isWhole_of_ordinary {cs : List Char} (h : ∀ c ∈ cs, Mode.isOrdinary c = true) :
    IsWhole cs := by
  by_cases hne : cs = []
  · subst hne
    exact ⟨.plain, rfl, rfl⟩
  · exact ⟨.plain, Mode.advance_ordinary rfl hne h, rfl⟩

theorem exists_of_isBareTail {cs : List Char} (h : isBareTail cs = true) :
    ∃ body, (∀ c ∈ body, isNamePart c = true) ∧ (cs = body ∨ cs = body ++ ['\n']) := by
  fun_induction isBareTail cs with
  | case1 => exact ⟨[], by simp, .inl rfl⟩
  | case2 => exact ⟨[], by simp, .inr rfl⟩
  | case3 c cs hne ih =>
    rw [Bool.and_eq_true] at h
    obtain ⟨body, hBody, hcs⟩ := ih h.2
    refine ⟨c :: body, ?_, by rcases hcs with rfl | rfl <;> simp⟩
    intro x hx
    rcases List.mem_cons.mp hx with rfl | hx
    · exact h.1
    · exact hBody x hx

theorem isOrdinary_of_isNamePart {c : Char} (h : isNamePart c = true) : Mode.isOrdinary c = true :=
  Mode.isOrdinary_of_class (by decide) (by decide) (by decide) (by decide) h

/-- The characters of a bare name, apart from a line feed at the end. -/
theorem exists_of_isBareName {n : String} (h : isBareName n = true) :
    ∃ body, (∀ c ∈ body, isNamePart c = true) ∧ (n.toList = body ∨ n.toList = body ++ ['\n']) := by
  rw [isBareName] at h
  cases hn : n.toList with
  | nil => simp [hn] at h
  | cons c cs =>
    simp only [hn, Bool.and_eq_true] at h
    obtain ⟨body, hBody, hcs⟩ := exists_of_isBareTail h.2
    refine ⟨c :: body, ?_, by rcases hcs with rfl | rfl <;> simp⟩
    intro x hx
    rcases List.mem_cons.mp hx with rfl | hx
    · simp [isNamePart, h.1]
    · exact hBody x hx

theorem isNamePart_of_mem_bareName {n : String} (h : isBareName n = true)
    (hLast : n.toList.getLast? ≠ some '\n') : ∀ c ∈ n.toList, isNamePart c = true := by
  obtain ⟨body, hBody, hn | hn⟩ := exists_of_isBareName h
  · rw [hn]
    exact hBody
  · rw [hn] at hLast
    exact absurd (by simp) hLast

theorem isOrdinary_of_isBareName {n : String} (h : isBareName n = true) :
    ∀ c ∈ n.toList, Mode.isOrdinary c = true := by
  intro c hc
  obtain ⟨body, hBody, hn | hn⟩ := exists_of_isBareName h
  · rw [hn] at hc
    exact isOrdinary_of_isNamePart (hBody c hc)
  · rw [hn] at hc
    rcases List.mem_append.mp hc with hc | hc
    · exact isOrdinary_of_isNamePart (hBody c hc)
    · rw [List.mem_singleton.mp hc]
      decide

theorem isWhole_bareName {n : String} (h : isBareName n = true) : IsWhole n.toList :=
  isWhole_of_ordinary (isOrdinary_of_isBareName h)

theorem isWhole_quoteName (n : String) : IsWhole (quoteName n).toList := by
  unfold quoteName
  split
  · next h => exact isWhole_bareName (by simpa using h)
  · exact isWhole_delimitName n

/-- Ordinary characters behind a whole text lead back to where it started. -/
theorem IsWhole.advance_append {xs : List Char} (h : IsWhole xs) (ys : List Char) (hne : ys ≠ [])
    (hys : ys.all Mode.isOrdinary = true) : Mode.plain.advance (xs ++ ys) = some .plain := by
  obtain ⟨m, hm, hOutside⟩ := h
  rw [Mode.advance_append_of_eq hm, Mode.advance_ordinary hOutside hne (List.all_eq_true.mp hys)]

theorem IsWhole.append {xs ys : List Char} (h : Mode.plain.advance xs = some .plain)
    (hys : IsWhole ys) : IsWhole (xs ++ ys) := by
  obtain ⟨m, hm, hOutside⟩ := hys
  exact ⟨m, by rw [Mode.advance_append_of_eq h, hm], hOutside⟩

theorem isWhole_join (separator : String) (hne : separator ≠ "")
    (hSeparator : separator.toList.all Mode.isOrdinary = true) {xs : List String}
    (h : ∀ x ∈ xs, IsWhole x.toList) : IsWhole (Text.join separator xs).toList := by
  induction xs with
  | nil => exact ⟨.plain, rfl, rfl⟩
  | cons x xs ih =>
    cases xs with
    | nil => exact h x List.mem_cons_self
    | cons y ys =>
      rw [Text.join_cons_cons, String.toList_append, String.toList_append]
      refine .append (IsWhole.advance_append (h x List.mem_cons_self) _ ?_ hSeparator)
        (ih fun z hz => h z (List.mem_cons_of_mem _ hz))
      rwa [ne_eq, String.toList_eq_nil_iff]

theorem isWhole_tuple {literals : List String} (h : ∀ l ∈ literals, IsWhole l.toList) :
    IsWhole (tuple literals).toList := by
  have hJoin := isWhole_join ", " (by decide) (by decide) h
  have hOpen : Mode.plain.advance ['('] = some .plain := rfl
  rw [tuple, String.toList_append, String.toList_append, List.append_assoc]
  exact .append hOpen ⟨_, IsWhole.advance_append hJoin _ (by decide) (by decide), rfl⟩

theorem advance_insertHeader (table : String) (columns : List String) :
    Mode.plain.advance (insertHeader table columns).toList = some .plain := by
  have hInto : Mode.plain.advance "INSERT INTO ".toList = some .plain := rfl
  have hTable := (isWhole_quoteName table).advance_append " (".toList (by decide) (by decide)
  have hName : ∀ x ∈ columns.map fun c => quoteName c, IsWhole x.toList := by
    intro x hx
    obtain ⟨c, _, rfl⟩ := List.mem_map.mp hx
    exact isWhole_quoteName c
  have hNames := isWhole_join ", " (by decide) (by decide) hName
  have hEnd := hNames.advance_append ") VALUES\n".toList (by decide) (by decide)
  have hText : (insertHeader table columns).toList = "INSERT INTO ".toList ++
      (((quoteName table).toList ++ " (".toList) ++
        ((Text.join ", " (columns.map fun c => quoteName c)).toList ++ ") VALUES\n".toList)) := by
    simp [insertHeader]
  rw [hText, Mode.advance_append_of_eq hInto, Mode.advance_append_of_eq hTable, hEnd]

/-- A text of which no character opens or ends anything. -/
def IsFragment (s : String) : Prop :=
  s.toList.all Mode.isOrdinary = true

instance (s : String) : Decidable (IsFragment s) :=
  inferInstanceAs (Decidable (s.toList.all Mode.isOrdinary = true))

/-- A text that leads from outside of everything to outside of everything. -/
def IsClosed (s : String) : Prop :=
  Mode.plain.advance s.toList = some .plain

theorem IsFragment.append {s t : String} (hs : IsFragment s) (ht : IsFragment t) :
    IsFragment (s ++ t) := by
  rw [IsFragment, String.toList_append, List.all_append, Bool.and_eq_true]
  exact ⟨hs, ht⟩

theorem IsFragment.isClosed {s : String} (h : IsFragment s) : IsClosed s := by
  by_cases hne : s.toList = []
  · rw [IsClosed, hne]
    rfl
  · exact Mode.advance_ordinary rfl hne (List.all_eq_true.mp h)

theorem IsClosed.isWhole {s : String} (h : IsClosed s) : IsWhole s.toList :=
  ⟨.plain, h, rfl⟩

theorem IsClosed.append_whole {s t : String} (hs : IsClosed s) (ht : IsWhole t.toList) :
    IsWhole (s ++ t).toList := by
  rw [String.toList_append]
  exact .append hs ht

theorem IsWhole.append_fragment {s t : String} (hs : IsWhole s.toList) (ht : IsFragment t)
    (hne : t ≠ "") : IsClosed (s ++ t) := by
  rw [IsClosed, String.toList_append]
  refine hs.advance_append _ ?_ ht
  rwa [ne_eq, String.toList_eq_nil_iff]

theorem isFragment_of_digits {s : String} (h : ∀ c ∈ s.toList, c.isDigit = true) :
    IsFragment s := by
  refine List.all_eq_true.mpr fun c hc => ?_
  exact Mode.isOrdinary_of_class (by decide) (by decide) (by decide) (by decide) (h c hc)

theorem isFragment_nat (n : Nat) : IsFragment (toString n) := by
  apply isFragment_of_digits
  intro c hc
  rw [Nat.toString_eq_repr, Nat.toList_repr] at hc
  exact Nat.isDigit_of_mem_toDigits (by decide) (by decide) hc

theorem isFragment_int (n : Int) : IsFragment (toString n) := by
  cases n with
  | ofNat n => exact isFragment_nat n
  | negSucc n =>
    have hSign : IsFragment "-" := by decide
    exact hSign.append (isFragment_nat (n + 1))

theorem Mode.advance_body {cs : List Char} (h : '$' ∉ cs) : Mode.body.advance cs = some .body := by
  induction cs with
  | nil => rfl
  | cons c cs ih =>
    rw [List.mem_cons, not_or] at h
    have hc : c ≠ '$' := fun hc => h.1 hc.symm
    simpa [Mode.advance, Mode.isOutside, Mode.next, hc] using ih h.2

/-- Whether a reader that is inside of a body is there again after a name. -/
def KeepsBody (n : String) : Prop :=
  Mode.body.advance (quoteName n).toList = some .body

instance (n : String) : Decidable (KeepsBody n) :=
  inferInstanceAs (Decidable (_ = _))

theorem keepsBody_of_isBareName {n : String} (h : isBareName n = true) : KeepsBody n := by
  have hDollar : '$' ∉ n.toList := by
    intro hMem
    exact absurd (isOrdinary_of_isBareName h _ hMem) (by decide)
  rw [KeepsBody, quoteName, if_pos (by simpa using h)]
  exact Mode.advance_body hDollar

/-- A text whose dollar signs stand apart stays in a body, and so does its quoted form: the quotes that are
doubled in it bring no dollar signs together. -/
theorem Mode.advance_quoted {m : Mode} {cs : List Char} (h : ¬ ['$', '$'] <:+: cs)
    (hm : m = .body ∨ m = .bodyDollar ∧ cs.head? ≠ some '$') :
    m.advance ((cs.flatMap fun c => if c = '"' then ['"', '"'] else [c]) ++ ['"']) = some .body := by
  induction cs generalizing m with
  | nil => rcases hm with rfl | ⟨rfl, -⟩ <;> rfl
  | cons c cs ih =>
    have hTail : ¬ ['$', '$'] <:+: cs := fun hInfix => h (hInfix.trans (List.suffix_cons c cs).isInfix)
    have hInside : m.isOutside = false := by
      rcases hm with rfl | ⟨rfl, -⟩ <;> rfl
    by_cases hDollar : c = '$'
    · subst hDollar
      have hBody : m = .body := by
        rcases hm with rfl | ⟨rfl, hHead⟩
        · rfl
        · exact absurd rfl hHead
      have hApart : cs.head? ≠ some '$' := by
        intro hHead
        obtain ⟨rest, rfl⟩ := List.head?_eq_some_iff.mp hHead
        exact h (List.prefix_append ['$', '$'] rest).isInfix
      subst hBody
      exact ih hTail (.inr ⟨rfl, hApart⟩)
    · have hNext : m.next c = .body := by
        rcases hm with rfl | ⟨rfl, -⟩ <;> simp [next, hDollar]
      by_cases hQuote : c = '"'
      · subst hQuote
        simp only [List.flatMap_cons, if_true, List.cons_append, List.nil_append, advance, hInside, hNext,
          Bool.and_false, Bool.false_eq_true, if_false]
        exact ih hTail (.inl rfl)
      · simp only [List.flatMap_cons, hQuote, if_false, List.cons_append, List.nil_append, advance, hInside,
          hNext, Bool.and_false, Bool.false_eq_true]
        exact ih hTail (.inl rfl)

theorem keepsBody_of_not_infix {n : String} (h : ¬ ['$', '$'] <:+: n.toList) : KeepsBody n := by
  by_cases hBare : isBareName n = true
  · exact keepsBody_of_isBareName hBare
  · have hText : (quoteName n).toList =
        '"' :: ((n.toList.flatMap fun c => if c = '"' then ['"', '"'] else [c]) ++ ['"']) := by
      simp [quoteName, hBare, delimitName, Text.substitute]
    rw [KeepsBody, hText]
    exact Mode.advance_quoted h (.inl rfl)

/-- A quote is not the first of two dollar signs. -/
theorem Mode.ne_bodyDollar_of_advance {m m' : Mode} {cs : List Char} (h : m.advance (cs ++ ['"']) = some m') :
    m' ≠ .bodyDollar := by
  rw [advance_append] at h
  obtain ⟨k, -, hQuote⟩ := Option.bind_eq_some_iff.mp h
  have hNext : k.next '"' ≠ .bodyDollar := by cases k <;> decide
  cases hQuote
  exact hNext

theorem isBlank_of_isNamePart {c : Char} (h : isNamePart c = true) : Text.isBlank c = false := by
  have hBounds : 48 ≤ c.toNat ∧ c.toNat ≤ 122 := by
    simp only [isNamePart, isNameStart, Bool.or_eq_true, Bool.and_eq_true, decide_eq_true_eq,
      beq_iff_eq] at h
    rcases h with (⟨hLow, hHigh⟩ | rfl) | ⟨hLow, hHigh⟩
    · have hLow : 97 ≤ c.toNat := hLow
      have hHigh : c.toNat ≤ 122 := hHigh
      omega
    · decide
    · have hLow : 48 ≤ c.toNat := hLow
      have hHigh : c.toNat ≤ 57 := hHigh
      omega
  simp only [Text.isBlank, Bool.or_eq_false_iff, Bool.and_eq_false_iff, decide_eq_false_iff_not,
    beq_eq_false_iff_ne]
  omega

theorem exists_getLast?_quoteName {n : String} (hLast : n.toList.getLast? ≠ some '\n') :
    ∃ d, (quoteName n).toList.getLast? = some d ∧ Text.isBlank d = false := by
  unfold quoteName
  split
  · next h =>
    have hBare : isBareName n = true := by simpa using h
    have hne : n.toList ≠ [] := by
      intro hn
      simp [isBareName, hn] at hBare
    exact ⟨_, List.getLast?_eq_some_getLast hne,
      isBlank_of_isNamePart (isNamePart_of_mem_bareName hBare hLast _ (List.getLast_mem hne))⟩
  · refine ⟨'"', ?_, by decide⟩
    rw [delimitName]
    exact Text.getLast?_append_of_eq _ rfl

end SeedScript.Sql
