import SeedScript.Proofs.Sql.Reading

/-!
# Reading clauses

Readers for the parts of a statement that may be left out: words that stand there or not, and what comes
behind such words. A writer puts a blank in front of each clause. That a clause is absent is seen from what
follows it, so the lemmas say with which characters the rest of the text may go on.
-/

namespace SeedScript.Sql.Reader

/-- The rest of a text after the given words. -/
def phrase (words : List String) (cs : List Char) : Option (List Char) :=
  words.foldlM (fun cs word => keyword word cs) cs

/-- Whether the given words stand there. -/
def mark (words : List String) : Reader Bool := fun cs =>
  match phrase words cs with
  | none => some (false, cs)
  | some rest => some (true, rest)

/-- What stands behind the given words; `none` if the words are not there. -/
def clause {α : Type} (words : List String) (item : Reader α) : Reader (Option α) := fun cs =>
  match phrase words cs with
  | none => some (none, cs)
  | some rest => (item rest).map fun r => (some r.1, r.2)

/-- The value of the first entry whose words stand there. -/
def oneOf {α : Type} (entries : List (List String × α)) : Reader α := fun cs =>
  entries.findSome? fun e => (phrase e.1 cs).map fun rest => (e.2, rest)

def isFragmentPart (c : Char) : Bool :=
  !isSpace c && c != ','

/-- A text up to white space or a comma. -/
def fragment : Reader String := fun cs =>
  let cs := cs.dropWhile isSpace
  if cs.takeWhile isFragmentPart = [] then none
  else some (String.ofList (cs.takeWhile isFragmentPart), cs.dropWhile isFragmentPart)

def natural : Reader Nat := fun cs =>
  if cs.takeWhile Char.isDigit = [] then none
  else some (Nat.ofDigitChars 10 (cs.takeWhile Char.isDigit) 0, cs.dropWhile Char.isDigit)

def integer : Reader Int := fun cs =>
  match cs.dropWhile isSpace with
  | [] => none
  | c :: rest =>
    if c = '-' then (natural rest).map fun r => (-(r.1 : Int), r.2)
    else (natural (c :: rest)).map fun r => ((r.1 : Int), r.2)

/-- Clauses with a blank in front of each. -/
def written (clauses : List String) : List Char :=
  clauses.flatMap fun c => ' ' :: c.toList

/-- The first character that is not white space. -/
def next (cs : List Char) : Option Char :=
  (cs.dropWhile isSpace).head?

/-- A text that stands behind a complete clause and goes on with one of the given characters. -/
structure GoesOn (initials rest : List Char) : Prop where
  ends : ∀ c, rest.head? = some c → c ∈ [' ', '\n', ',']
  starts : ∃ c ∈ initials, next rest = some c

/-- A word that is found again in what is written of it. -/
def IsKeyword (word : String) : Prop :=
  word.toList ≠ [] ∧ word.toList.all (fun c => c.isAlpha && c.toUpper == c) = true

instance (word : String) : Decidable (IsKeyword word) :=
  inferInstanceAs (Decidable (_ ∧ _))

variable {α : Type} {initials rest : List Char}

theorem toList_join_blank (x : String) (xs : List String) :
    (Text.join " " (x :: xs)).toList = x.toList ++ written xs := by
  induction xs generalizing x with
  | nil => simp [written]
  | cons y ys ih =>
    rw [Text.join_cons_cons, String.toList_append, ih y]
    simp [written]

theorem written_append (xs ys : List String) : written (xs ++ ys) = written xs ++ written ys :=
  List.flatMap_append

theorem written_cons (x : String) (xs : List String) :
    written (x :: xs) = ' ' :: (x.toList ++ written xs) := by
  simp [written]

theorem endsToken_written_append (h : EndsToken rest) (clauses : List String) :
    EndsToken (written clauses ++ rest) := by
  cases clauses with
  | nil => exact h
  | cons c cs =>
    rw [written_cons]
    exact endsToken_cons (by simp) _

theorem next_append {blanks : List Char} (h : blanks.all isSpace = true) {c : Char}
    (hc : isSpace c = false) (cs : List Char) : next (blanks ++ c :: cs) = some c := by
  rw [next, dropWhile_space_append h hc]
  rfl

theorem isSpace_of_isFragmentPart {c : Char} (h : isFragmentPart c = true) : isSpace c = false := by
  rw [isFragmentPart, Bool.and_eq_true] at h
  simpa using h.1

theorem dropWhile_blank_append {cs : List Char} (hne : cs ≠ []) (h : ∀ c ∈ cs, isSpace c = false)
    (rest : List Char) : (' ' :: (cs ++ rest)).dropWhile isSpace = cs ++ rest := by
  cases cs with
  | nil => exact absurd rfl hne
  | cons c cs =>
    have hBlank : [' '].all isSpace = true := rfl
    exact dropWhile_space_append hBlank (h c List.mem_cons_self) _

/-- A word is read as itself and as no other word. -/
theorem keyword_blank_append {w : String} (hw : IsKeyword w) (word : String) (h : EndsToken rest) :
    keyword word (' ' :: (w.toList ++ rest)) = if w = word then some rest else none := by
  obtain ⟨hne, hAll⟩ := hw
  have hParts : ∀ c ∈ w.toList, c.isAlpha = true ∧ c.toUpper = c := by simpa using hAll
  have hUpper : w.toList.map Char.toUpper = w.toList :=
    (List.map_congr_left fun c hc => (hParts c hc).2).trans (List.map_id _)
  have hBlank : [' '].all isSpace = true := rfl
  have hWord := keyword_append word hne (fun c hc => (hParts c hc).1) hBlank fun _ =>
    not_of_head? (by decide) h
  simp only [hUpper, String.toList_inj] at hWord
  exact hWord

/-- Of two phrases of which neither is the start of the other, only the one that stands there is read. -/
theorem phrase_written_append {words other : List String} (hWords : ∀ w ∈ words, IsKeyword w)
    (hPrefix : other <+: words ∨ words <+: other → other = words) (h : EndsToken rest) :
    phrase other (written words ++ rest) = if other = words then some rest else none := by
  induction words generalizing other with
  | nil =>
    obtain rfl := hPrefix (.inr List.nil_prefix)
    rfl
  | cons w words ih =>
    cases other with
    | nil => cases hPrefix (.inl List.nil_prefix)
    | cons o other =>
      have hw := hWords w List.mem_cons_self
      have hStep : phrase (o :: other) (written (w :: words) ++ rest) =
          (if w = o then some (written words ++ rest) else none).bind (phrase other) := by
        rw [written_cons, List.cons_append, List.append_assoc,
          ← keyword_blank_append hw o (endsToken_written_append h words)]
        rfl
      rw [hStep]
      -- The first words differ, or they are read and the rest is compared behind them.
      by_cases hHead : w = o
      · subst hHead
        have hTail : other <+: words ∨ words <+: other → other = words := fun hp => by
          simpa [List.cons_prefix_cons] using hPrefix (by simpa [List.cons_prefix_cons] using hp)
        simpa using ih (fun x hx => hWords x (List.mem_cons_of_mem _ hx)) hTail
      · have hNe : o ≠ w := fun h => hHead h.symm
        simp [hHead, hNe]

theorem phrase_self {words : List String} (hWords : ∀ w ∈ words, IsKeyword w) (h : EndsToken rest) :
    phrase words (written words ++ rest) = some rest := by
  rw [phrase_written_append hWords (fun _ => rfl) h, if_pos rfl]

/-- Entries of which each is found by its words. -/
def IsUnambiguous (entries : List (List String × α)) : Prop :=
  (∀ e ∈ entries, ∀ w ∈ e.1, IsKeyword w) ∧ ∀ e ∈ entries, ∀ f ∈ entries, e.1 <+: f.1 → e = f

instance [DecidableEq α] (entries : List (List String × α)) : Decidable (IsUnambiguous entries) :=
  inferInstanceAs (Decidable (_ ∧ _))

theorem oneOf_written_append {entries : List (List String × α)} (hEntries : IsUnambiguous entries)
    {e : List String × α} (he : e ∈ entries) (h : EndsToken rest) :
    oneOf entries (written e.1 ++ rest) = some (e.2, rest) := by
  obtain ⟨hWords, hPrefix⟩ := hEntries
  have hSame : ∀ f ∈ entries, f.1 <+: e.1 ∨ e.1 <+: f.1 → f = e := by
    rintro f hf (hp | hp)
    · exact hPrefix f hf e he hp
    · exact (hPrefix e he f hf hp).symm
  have hTry : ∀ f ∈ entries,
      phrase f.1 (written e.1 ++ rest) = if f.1 = e.1 then some rest else none := fun f hf =>
    phrase_written_append (hWords e he) (fun hp => congrArg Prod.fst (hSame f hf hp)) h
  cases hFind : oneOf entries (written e.1 ++ rest) with
  | none =>
    have hNone := List.findSome?_eq_none_iff.mp hFind e he
    simp [hTry e he] at hNone
  | some r =>
    obtain ⟨f, hf, hr⟩ := List.exists_of_findSome?_eq_some hFind
    rw [hTry f hf] at hr
    by_cases hWord : f.1 = e.1
    · obtain rfl := hSame f hf (.inl (hWord ▸ List.prefix_rfl))
      simpa using hr.symm
    · simp [hWord] at hr

theorem GoesOn.endsToken (h : GoesOn initials rest) : EndsToken rest := by
  intro c hc
  have hSub : [' ', '\n', ','] ⊆ [' ', '\n', ',', '(', ')', ';'] := by decide
  exact hSub (h.ends c hc)

theorem GoesOn.mono {more : List Char} (h : GoesOn initials rest) (hSub : initials ⊆ more) :
    GoesOn more rest := by
  obtain ⟨c, hc, hNext⟩ := h.starts
  exact ⟨h.ends, c, hSub hc, hNext⟩

theorem goesOn_written_append {clauses : List String}
    (hHead : ∀ x, clauses.head? = some x → ∃ c ∈ initials, x.toList.head? = some c ∧ isSpace c = false)
    (h : GoesOn initials rest) : GoesOn initials (written clauses ++ rest) := by
  cases clauses with
  | nil => exact h
  | cons x xs =>
    obtain ⟨c, hc, hFirst, hSpace⟩ := hHead x rfl
    obtain ⟨cs, hcs⟩ := List.head?_eq_some_iff.mp hFirst
    rw [written_cons, hcs]
    refine ⟨?_, c, hc, next_append (show [' '].all isSpace = true from rfl) hSpace _⟩
    rintro _ ⟨⟩
    exact List.mem_cons_self

theorem symbol_of_next {c d : Char} (h : next rest = some c) (hd : c ≠ d) : symbol d rest = none := by
  obtain ⟨cs, hcs⟩ := List.head?_eq_some_iff.mp h
  simp [symbol, hcs, hd]

theorem keyword_of_next {word : String} {c d : Char} (h : next rest = some c)
    (hWord : word.toList.head? = some d) (hd : c.isAlpha = true → c.toUpper ≠ d) :
    keyword word rest = none := by
  obtain ⟨cs, hcs⟩ := List.head?_eq_some_iff.mp h
  obtain ⟨ds, hds⟩ := List.head?_eq_some_iff.mp hWord
  rw [keyword, hcs, hds]
  by_cases hc : c.isAlpha = true
  · simp [hc, hd hc]
  · simp [hc]

theorem phrase_of_next {word : String} {words : List String} {c d : Char} (h : next rest = some c)
    (hWord : word.toList.head? = some d) (hd : c.isAlpha = true → c.toUpper ≠ d) :
    phrase (word :: words) rest = none := by
  rw [phrase, List.foldlM_cons, keyword_of_next h hWord hd]
  rfl

theorem phrase_of_goesOn {word : String} {words : List String} {d : Char}
    (h : GoesOn initials rest) (hWord : word.toList.head? = some d)
    (hd : d ∉ initials.map Char.toUpper) : phrase (word :: words) rest = none := by
  obtain ⟨c, hc, hNext⟩ := h.starts
  exact phrase_of_next hNext hWord fun _ hEq => hd (hEq ▸ List.mem_map_of_mem hc)

theorem mark_self {words : List String} (hWords : ∀ w ∈ words, IsKeyword w) (h : EndsToken rest) :
    mark words (written words ++ rest) = some (true, rest) := by
  rw [mark, phrase_self hWords h]

theorem mark_of_phrase_eq_none {words : List String} (h : phrase words rest = none) :
    mark words rest = some (false, rest) := by
  rw [mark, h]

theorem clause_self {words : List String} {item : Reader α} {x : α} {cs : List Char}
    (hWords : ∀ w ∈ words, IsKeyword w) (h : EndsToken cs) (hItem : item cs = some (x, rest)) :
    clause words item (written words ++ cs) = some (some x, rest) := by
  rw [clause, phrase_self hWords h]
  simp [hItem]

theorem clause_of_phrase_eq_none {words : List String} {item : Reader α}
    (h : phrase words rest = none) : clause words item rest = some (none, rest) := by
  rw [clause, h]

theorem fragment_blank_append {text : String} (hne : text ≠ "")
    (hParts : ∀ c ∈ text.toList, isFragmentPart c = true) (h : GoesOn initials rest) :
    fragment (' ' :: (text.toList ++ rest)) = some (text, rest) := by
  obtain ⟨hTake, hDrop⟩ := span_of_head? fun _ => not_of_head? (p := isFragmentPart) (by decide) h.ends
  have hne' : text.toList ≠ [] := by simpa using hne
  have hSpace := dropWhile_blank_append hne' (fun c hc => isSpace_of_isFragmentPart (hParts c hc)) rest
  rw [fragment, hSpace]
  simp only [List.takeWhile_append_of_pos hParts, List.dropWhile_append_of_pos hParts, hTake, hDrop,
    List.append_nil, hne', if_false, String.ofList_toList]

theorem isDigit_of_mem_toDigits {n : Nat} {c : Char} (h : c ∈ Nat.toDigits 10 n) : c.isDigit = true :=
  Nat.isDigit_of_mem_toDigits (by decide) (by decide) h

theorem natural_append (n : Nat) (h : EndsToken rest) :
    natural (Nat.toDigits 10 n ++ rest) = some (n, rest) := by
  obtain ⟨hTake, hDrop⟩ := span_of_head? fun _ => not_of_head? (p := Char.isDigit) (by decide) h
  have hDigits : ∀ c ∈ Nat.toDigits 10 n, c.isDigit = true := fun _ => isDigit_of_mem_toDigits
  rw [natural, List.takeWhile_append_of_pos hDigits, List.dropWhile_append_of_pos hDigits, hTake,
    hDrop, List.append_nil, if_neg Nat.toDigits_ne_nil, Nat.ofDigitChars_ten_toDigits]

theorem integer_append (n : Int) (h : EndsToken rest) :
    integer ((toString n).toList ++ rest) = some (n, rest) := by
  cases n with
  | ofNat n =>
    have hText : (toString (Int.ofNat n)).toList = Nat.toDigits 10 n := Nat.toList_repr
    rw [hText]
    cases hDigits : Nat.toDigits 10 n with
    | nil => exact absurd hDigits Nat.toDigits_ne_nil
    | cons c cs =>
      have hc : c.isDigit = true := isDigit_of_mem_toDigits (hDigits ▸ List.mem_cons_self)
      have hSign : c ≠ '-' := by rintro rfl; cases hc
      have hSpace : isSpace c = false := by
        apply isSpace_of_lt
        simp only [Char.isDigit, Bool.and_eq_true, decide_eq_true_eq, ge_iff_le,
          UInt32.le_iff_toNat_le] at hc
        have hLow : (48 : Nat) ≤ c.toNat := hc.1
        omega
      have hNatural := natural_append n h
      rw [hDigits, List.cons_append] at hNatural
      rw [List.cons_append, integer, List.dropWhile_cons_of_neg (by simp [hSpace])]
      simp [hSign, hNatural]
  | negSucc n =>
    have hText : (toString (Int.negSucc n)).toList = '-' :: Nat.toDigits 10 (n + 1) := by
      have hRepr : toString (Int.negSucc n) = "-" ++ (n + 1).repr := rfl
      rw [hRepr, String.toList_append, Nat.toList_repr]
      rfl
    rw [hText, List.cons_append, integer, List.dropWhile_cons_of_neg (by decide)]
    simp [natural_append (n + 1) h, Int.negSucc_eq]

end SeedScript.Sql.Reader
