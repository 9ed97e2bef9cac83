import SeedScript.Proofs.Sql.Whole

/-!
# Reading INSERT statements

Readers of names, literals and lists of them, each of which gives what it has read and the text that
is left. White space in front of a token is skipped. A literal holds the text between its quotes, in
which two quotes stand for one; the same holds of a delimited name, and a bare name stands for
itself. Main statement: what an INSERT statement is made of is read back from it, whatever texts the
rows hold.
-/

namespace SeedScript.Sql

/-- A function that reads a value at the head of a text and gives the rest of the text. -/
abbrev Reader (α : Type) := List Char → Option (α × List Char)

namespace Reader

/-- The rest of a text after white space and the given character. -/
def symbol (c : Char) (cs : List Char) : Option (List Char) :=
  match cs.dropWhile isSpace with
  | [] => none
  | d :: rest => if d = c then some rest else none

/-- The rest of a text after white space and the given word in any letter case. -/
def keyword (word : String) (cs : List Char) : Option (List Char) :=
  let cs := cs.dropWhile isSpace
  if (cs.takeWhile Char.isAlpha).map Char.toUpper = word.toList then some (cs.dropWhile Char.isAlpha)
  else none

/-- What stands in front of a closing quote. Two quotes are one quote of the text. -/
def quoted (q : Char) : Reader (List Char)
  | [] => none
  | c :: cs =>
    if c = q then
      match cs with
      | [] => some ([], [])
      | d :: ds => if d = q then (quoted q ds).map fun r => (q :: r.1, r.2) else some ([], d :: ds)
    else (quoted q cs).map fun r => (c :: r.1, r.2)

def literal : Reader String := fun cs => do
  let (text, rest) ← quoted '\'' (← symbol '\'' cs)
  some (String.ofList text, rest)

/-- Whether a character can be in a bare name, at its start or behind it. -/
def isBare (first : Bool) (c : Char) : Bool :=
  c.isLower || c = '_' || (!first && c.isDigit)

def name : Reader String := fun cs =>
  match cs.dropWhile isSpace with
  | [] => none
  | c :: rest =>
    if c = '"' then (quoted '"' rest).map fun r => (String.ofList r.1, r.2)
    else if isBare true c then
      some (String.ofList (c :: rest.takeWhile (isBare false)), rest.dropWhile (isBare false))
    else none

/-- At most `n` items with commas between them, and at least one. -/
def upTo {α : Type} (item : Reader α) : Nat → Reader (List α)
  | 0, _ => none
  | n + 1, cs =>
    match item cs with
    | none => none
    | some (x, rest) =>
      match symbol ',' rest with
      | none => some ([x], rest)
      | some rest => (upTo item n rest).map fun r => (x :: r.1, r.2)

/-- Items with commas between them. Each takes a character, so there are not more than characters. -/
def sequence {α : Type} (item : Reader α) : Reader (List α) := fun cs =>
  upTo item (cs.length + 1) cs

def enclosed {α : Type} (item : Reader α) : Reader (List α) := fun cs => do
  let (xs, rest) ← sequence item (← symbol '(' cs)
  let rest ← symbol ')' rest
  some (xs, rest)

end Reader

structure Insertion where
  table : String
  columns : List String
  rows : List (List String)
deriving DecidableEq

/-- Whether a statement starts as INSERT statements do. -/
def isInsertion (statement : String) : Bool :=
  (Reader.keyword "INSERT" statement.toList).isSome

open Reader in
def insertion? (statement : String) : Option Insertion := do
  let cs ← keyword "INTO" (← keyword "INSERT" statement.toList)
  let (table, cs) ← name cs
  let (columns, cs) ← enclosed name cs
  let (rows, cs) ← sequence (enclosed literal) (← keyword "VALUES" cs)
  if cs.all isSpace then some ⟨table, columns, rows⟩ else none

namespace Reader

/-- A text that continues no token in front of it. -/
def EndsToken (rest : List Char) : Prop :=
  ∀ c, rest.head? = some c → c ∈ [' ', '\n', ',', '(', ')', ';']

/-- A reader takes a text for a value, whatever white space is in front and whatever comes behind. -/
def Reads {α : Type} (r : Reader α) (text : String) (x : α) : Prop :=
  ∀ blanks rest, blanks.all isSpace = true → EndsToken rest →
    r (blanks ++ (text.toList ++ rest)) = some (x, rest)

theorem endsToken_nil : EndsToken [] := by
  intro c hc
  cases hc

theorem endsToken_cons {c : Char} (h : c ∈ [' ', '\n', ',', '(', ')', ';']) (cs : List Char) :
    EndsToken (c :: cs) := by
  intro d hd
  cases hd
  exact h

theorem dropWhile_space_append {blanks : List Char} (h : blanks.all isSpace = true)
    {c : Char} (hc : isSpace c = false) (cs : List Char) :
    (blanks ++ c :: cs).dropWhile isSpace = c :: cs := by
  rw [List.dropWhile_append_of_pos (List.all_eq_true.mp h), List.dropWhile_cons_of_neg (by simp [hc])]

theorem symbol_append (blanks : List Char) (h : blanks.all isSpace = true) {c : Char}
    (hc : isSpace c = false) (cs : List Char) : symbol c (blanks ++ c :: cs) = some cs := by
  simp [symbol, dropWhile_space_append h hc]

theorem symbol_cons_self {c : Char} (hc : isSpace c = false) (cs : List Char) :
    symbol c (c :: cs) = some cs :=
  symbol_append [] rfl hc cs

theorem symbol_cons_of_ne {c d : Char} (hd : isSpace d = false) (h : d ≠ c) (cs : List Char) :
    symbol c (d :: cs) = none := by
  simp [symbol, hd, h]

theorem quoted_double (q : Char) (cs : List Char) :
    quoted q (q :: q :: cs) = (quoted q cs).map fun r => (q :: r.1, r.2) := by
  simp [quoted]

theorem quoted_cons_of_ne {q c : Char} (h : c ≠ q) (cs : List Char) :
    quoted q (c :: cs) = (quoted q cs).map fun r => (c :: r.1, r.2) := by
  rw [quoted.eq_def]
  simp [h]

theorem quoted_substitute {q : Char} {double : String} (hDouble : double.toList = [q, q])
    (s : String) {rest : List Char} (hRest : rest.head? ≠ some q) :
    quoted q ((Text.substitute q double s).toList ++ q :: rest) = some (s.toList, rest) := by
  rw [Text.substitute, String.toList_ofList, hDouble]
  induction s.toList with
  | nil =>
    cases rest with
    | nil => simp [quoted]
    | cons d ds =>
      have hd : d ≠ q := fun h => hRest (by rw [h]; rfl)
      simp [quoted, hd]
  | cons c cs ih =>
    by_cases hc : c = q
    · subst hc
      simp only [List.flatMap_cons, if_pos, List.cons_append, List.nil_append]
      rw [quoted_double, ih]
      rfl
    · simp only [List.flatMap_cons, hc, if_false, List.cons_append, List.nil_append]
      rw [quoted_cons_of_ne hc, ih]
      rfl

theorem head?_ne_of_endsToken {rest : List Char} (h : EndsToken rest) {q : Char}
    (hq : q ∉ [' ', '\n', ',', '(', ')', ';']) : rest.head? ≠ some q :=
  fun hHead => hq (h q hHead)

theorem reads_quoteLiteral (s : String) : Reads literal (quoteLiteral s) s := by
  intro blanks rest hBlanks hRest
  have hText : (quoteLiteral s).toList ++ rest =
      '\'' :: ((Text.substitute '\'' "\'\'" s).toList ++ '\'' :: rest) := by
    simp [quoteLiteral, escape]
  rw [hText, literal, symbol_append _ hBlanks (by decide)]
  simp only [Option.bind_eq_bind, Option.bind_some]
  rw [quoted_substitute rfl s (head?_ne_of_endsToken hRest (by decide))]
  simp

theorem isLower_iff (c : Char) : c.isLower = true ↔ 'a' ≤ c ∧ c ≤ 'z' := by
  have hDef : c.isLower = (decide ('a' ≤ c) && decide (c ≤ 'z')) := rfl
  rw [hDef, Bool.and_eq_true, decide_eq_true_eq, decide_eq_true_eq]

theorem isAlpha_iff (c : Char) : c.isAlpha = true ↔ 'A' ≤ c ∧ c ≤ 'Z' ∨ 'a' ≤ c ∧ c ≤ 'z' := by
  have hDef : c.isAlpha = (decide ('A' ≤ c ∧ c ≤ 'Z') || c.isLower) := rfl
  rw [hDef, Bool.or_eq_true, decide_eq_true_eq, isLower_iff]

theorem isBare_of_isNameStart {c : Char} (h : isNameStart c = true) (first : Bool) :
    isBare first c = true := by
  simp only [isNameStart, Bool.or_eq_true, Bool.and_eq_true, decide_eq_true_eq, beq_iff_eq] at h
  simp only [isBare, Bool.or_eq_true, decide_eq_true_eq]
  rcases h with h | h
  · exact .inl (.inl ((isLower_iff c).mpr h))
  · exact .inl (.inr h)

theorem isBare_of_isNamePart {c : Char} (h : isNamePart c = true) : isBare false c = true := by
  rw [isNamePart, Bool.or_eq_true] at h
  rcases h with h | h
  · exact isBare_of_isNameStart h false
  · have hDigit : c.isDigit = true := by simpa [Char.isDigit, Char.le_def] using h
    simp [isBare, hDigit]

theorem le_toNat_of_isBare {c : Char} (h : isBare true c = true) : '_'.toNat ≤ c.toNat := by
  simp only [isBare, Bool.or_eq_true, decide_eq_true_eq, Bool.not_true, Bool.false_and,
    Bool.false_eq_true, or_false] at h
  rcases h with h | rfl
  · have hLow : 97 ≤ c.toNat := ((isLower_iff c).mp h).1
    exact Nat.le_trans (by decide) hLow
  · exact Nat.le_refl _

theorem isSpace_of_lt {c : Char} (h : 32 < c.toNat) : isSpace c = false := by
  have hBlank : c ≠ ' ' := by rintro rfl; simp at h
  simp only [isSpace, hBlank, decide_false, Bool.false_or, Bool.and_eq_false_iff,
    decide_eq_false_iff_not]
  omega

theorem isSpace_of_isAlpha {c : Char} (h : c.isAlpha = true) : isSpace c = false := by
  have hRange : (65 ≤ c.toNat ∧ c.toNat ≤ 90) ∨ (97 ≤ c.toNat ∧ c.toNat ≤ 122) :=
    (isAlpha_iff c).mp h
  apply isSpace_of_lt
  omega

theorem isSpace_of_isBare {c : Char} (h : isBare true c = true) : isSpace c = false := by
  have hLow : 95 ≤ c.toNat := le_toNat_of_isBare h
  apply isSpace_of_lt
  omega

/-- A text that can start with few characters only does not start with a character of another kind. -/
theorem not_of_head? {p : Char → Bool} {ends rest : List Char}
    (hEnds : ends.all (fun c => !p c) = true) (h : ∀ c, rest.head? = some c → c ∈ ends) {c : Char}
    (hc : rest.head? = some c) : p c = false := by
  simpa using List.all_eq_true.mp hEnds c (h c hc)

theorem span_of_head? {p : Char → Bool} {rest : List Char} (h : ∀ c, rest.head? = some c → p c = false) :
    rest.takeWhile p = [] ∧ rest.dropWhile p = rest := by
  cases rest with
  | nil => exact ⟨rfl, rfl⟩
  | cons c cs => simp [h c rfl]

theorem isBare_of_endsToken {rest : List Char} (h : EndsToken rest) {c : Char}
    (hc : rest.head? = some c) : isBare false c = false :=
  not_of_head? (by decide) h hc

/-- The letters at the head of a text are the word that is read, or they are another word. -/
theorem keyword_append (word : String) {cs blanks rest : List Char} (hne : cs ≠ [])
    (hLetters : ∀ c ∈ cs, c.isAlpha = true) (hBlanks : blanks.all isSpace = true)
    (hRest : ∀ c, rest.head? = some c → c.isAlpha = false) :
    keyword word (blanks ++ (cs ++ rest)) =
      if cs.map Char.toUpper = word.toList then some rest else none := by
  have hSpace : (blanks ++ (cs ++ rest)).dropWhile isSpace = cs ++ rest := by
    cases cs with
    | nil => exact absurd rfl hne
    | cons c cs =>
      exact dropWhile_space_append hBlanks (isSpace_of_isAlpha (hLetters c List.mem_cons_self)) _
  obtain ⟨hTake, hDrop⟩ := span_of_head? hRest
  simp only [keyword, hSpace]
  rw [List.takeWhile_append_of_pos hLetters, List.dropWhile_append_of_pos hLetters, hTake, hDrop,
    List.append_nil]

theorem reads_bareName {n : String} (h : isBareName n = true)
    (hLast : n.toList.getLast? ≠ some '\n') : Reads name n n := by
  intro blanks rest hBlanks hRest
  have hParts := isNamePart_of_mem_bareName h hLast
  rw [isBareName] at h
  cases hn : n.toList with
  | nil => simp [hn] at h
  | cons c cs =>
    simp only [hn, Bool.and_eq_true] at h
    have hStart := isBare_of_isNameStart h.1 true
    have hQuote : c ≠ '"' := by rintro rfl; cases hStart
    have hTail : ∀ x ∈ cs, isBare false x = true := by
      intro x hx
      refine isBare_of_isNamePart (hParts x ?_)
      rw [hn]
      exact List.mem_cons_of_mem _ hx
    rw [List.cons_append, name, dropWhile_space_append hBlanks (isSpace_of_isBare hStart)]
    simp only [hQuote, if_false, hStart, if_true]
    rw [List.takeWhile_append_of_pos hTail, List.dropWhile_append_of_pos hTail]
    cases rest with
    | nil => simp [← hn]
    | cons d ds => simp [isBare_of_endsToken hRest rfl, ← hn]

theorem reads_delimitName (n : String) : Reads name (delimitName n) n := by
  intro blanks rest hBlanks hRest
  have hText : (delimitName n).toList ++ rest =
      '"' :: ((Text.substitute '"' "\"\"" n).toList ++ '"' :: rest) := by
    simp [delimitName]
  rw [hText, name, dropWhile_space_append hBlanks (by decide)]
  simp only [if_true]
  rw [quoted_substitute rfl n (head?_ne_of_endsToken hRest (by decide))]
  simp

theorem reads_quoteName {n : String} (hLast : n.toList.getLast? ≠ some '\n') :
    Reads name (quoteName n) n := by
  unfold quoteName
  split
  · next h => exact reads_bareName (by simpa using h) hLast
  · exact reads_delimitName n

/-- Items with commas between them, of which the reader takes only a part each; `Ends` is what has to stand
behind an item. -/
theorem upTo_join_map {α β : Type} {item : Reader β} {write : α → String} (value : α → β)
    {Ends : List Char → Prop} {separator : String} {gap : List Char}
    (hSeparator : separator.toList = ',' :: gap) (hGap : gap.all isSpace = true)
    (hEnds : ∀ cs, Ends (',' :: cs)) {xs : List α} (hne : xs ≠ [])
    (hItem : ∀ x ∈ xs, ∀ blanks rest, blanks.all isSpace = true → Ends rest →
      item (blanks ++ ((write x).toList ++ rest)) = some (value x, rest))
    {n : Nat} (hn : xs.length ≤ n) {blanks rest : List Char} (hBlanks : blanks.all isSpace = true)
    (hRest : Ends rest) (hComma : symbol ',' rest = none) :
    upTo item n (blanks ++ ((Text.join separator (xs.map write)).toList ++ rest)) =
      some (xs.map value, rest) := by
  induction xs generalizing n blanks with
  | nil => exact absurd rfl hne
  | cons x xs ih =>
    obtain ⟨n, rfl⟩ : ∃ m, n = m + 1 := ⟨n - 1, by simp at hn; omega⟩
    have hx := hItem x List.mem_cons_self
    cases xs with
    | nil =>
      rw [List.map_singleton, Text.join_singleton, upTo, hx blanks rest hBlanks hRest]
      simp [hComma]
    | cons y ys =>
      have hTail := ih (n := n) (by simp) (fun z hz => hItem z (List.mem_cons_of_mem _ hz))
        (by simpa using hn) hGap
      have hJoin : (Text.join separator ((x :: y :: ys).map write)).toList ++ rest =
          (write x).toList ++ ',' :: (gap ++
            ((Text.join separator ((y :: ys).map write)).toList ++ rest)) := by
        simp [Text.join_cons_cons, hSeparator]
      rw [hJoin, upTo, hx blanks _ hBlanks (hEnds _)]
      simp only [symbol_cons_self (c := ',') (by decide)]
      rw [hTail]
      rfl

theorem upTo_join {α : Type} {item : Reader α} {write : α → String} {separator : String}
    {gap : List Char} (hSeparator : separator.toList = ',' :: gap)
    (hGap : gap.all isSpace = true) {xs : List α} (hne : xs ≠ [])
    (hItem : ∀ x ∈ xs, Reads item (write x) x) {n : Nat} (hn : xs.length ≤ n)
    {blanks rest : List Char} (hBlanks : blanks.all isSpace = true) (hRest : EndsToken rest)
    (hComma : symbol ',' rest = none) :
    upTo item n (blanks ++ ((Text.join separator (xs.map write)).toList ++ rest)) =
      some (xs, rest) := by
  have h := upTo_join_map id hSeparator hGap (endsToken_cons (by simp)) hne hItem hn hBlanks hRest
    hComma
  rwa [List.map_id] at h

theorem length_le_length_join {α : Type} (write : α → String) (separator : String)
    (hSeparator : separator ≠ "") (xs : List α) :
    xs.length ≤ (Text.join separator (xs.map write)).toList.length + 1 := by
  have hPos : 0 < separator.toList.length := by
    rw [List.length_pos_iff, ne_eq, String.toList_eq_nil_iff]
    exact hSeparator
  induction xs with
  | nil => simp
  | cons x xs ih =>
    cases xs with
    | nil => simp
    | cons y ys =>
      simp only [List.map_cons, List.length_cons, Text.join_cons_cons, String.toList_append,
        List.length_append] at ih ⊢
      omega

theorem reads_enclosed {α : Type} {item : Reader α} {write : α → String} {xs : List α}
    (hne : xs ≠ []) (hItem : ∀ x ∈ xs, Reads item (write x) x) :
    Reads (enclosed item) ("(" ++ Text.join ", " (xs.map write) ++ ")") xs := by
  intro blanks rest hBlanks _
  have hText : ("(" ++ Text.join ", " (xs.map write) ++ ")").toList ++ rest =
      '(' :: ([] ++ ((Text.join ", " (xs.map write)).toList ++ ')' :: rest)) := by
    simp
  have hLength : xs.length ≤
      ([] ++ ((Text.join ", " (xs.map write)).toList ++ ')' :: rest)).length + 1 := by
    have := length_le_length_join write ", " (by decide) xs
    simp only [List.nil_append, List.length_append]
    omega
  rw [hText, enclosed, symbol_append _ hBlanks (by decide)]
  simp only [Option.bind_eq_bind, Option.bind_some, sequence]
  have hSeparator : ", ".toList = ',' :: [' '] := rfl
  rw [upTo_join hSeparator (by decide) hne hItem hLength (by simp)
    (endsToken_cons (by simp) rest) (symbol_cons_of_ne (by decide) (by decide) rest)]
  simp [symbol_cons_self (c := ')') (by decide)]

end Reader

theorem isInsertion_of_head? {s : String} {c : Char} (h : s.toList.head? = some c)
    (hSpace : isSpace c = false) (hAlpha : c.isAlpha = true) (hc : c.toUpper ≠ 'I') :
    isInsertion s = false := by
  obtain ⟨cs, hcs⟩ := List.head?_eq_some_iff.mp h
  rw [isInsertion, hcs, Reader.keyword]
  simp [hSpace, hAlpha, hc]

end SeedScript.Sql
