import SeedScript.Proofs.Text.Trim
import SeedScript.StatementSet

/-!
# Cutting scripts into statements

A reader goes through a script character by character and knows whether it is inside a literal, a
delimited name or a body between pairs of dollar signs. A semicolon ends a statement unless it is
inside one of these. A quote that is doubled inside a literal or a name stands for one quote, and no
other character is special there. Main statement: the script of statements that are whole, each on
its own, is cut into exactly these statements.
-/

namespace SeedScript.Sql

/-- What a reader is in. After a quote that may close a literal or a name, and after a single dollar
sign, the next character decides. -/
inductive Mode where
  | plain
  | dollar
  | literal
  | literalQuote
  | name
  | nameQuote
  | body
  | bodyDollar
deriving DecidableEq, Repr

namespace Mode

/-- Whether a semicolon ends a statement. -/
def isOutside : Mode → Bool
  | plain | dollar | literalQuote | nameQuote => true
  | literal | name | body | bodyDollar => false

/-- What a character outside of everything opens. -/
def enter (c : Char) : Mode :=
  if c = '\'' then literal
  else if c = '"' then name
  else if c = '$' then dollar
  else plain

def next : Mode → Char → Mode
  | plain, c => enter c
  | dollar, c => if c = '$' then body else enter c
  | literal, c => if c = '\'' then literalQuote else literal
  | literalQuote, c => if c = '\'' then literal else enter c
  | name, c => if c = '"' then nameQuote else name
  | nameQuote, c => if c = '"' then name else enter c
  | body, c => if c = '$' then bodyDollar else body
  | bodyDollar, c => if c = '$' then plain else body

/-- The mode after a text in which no statement ends. -/
def advance (m : Mode) : List Char → Option Mode
  | [] => some m
  | c :: cs => if c = ';' && m.isOutside then none else (m.next c).advance cs

theorem advance_append (m : Mode) (xs ys : List Char) :
    m.advance (xs ++ ys) = (m.advance xs).bind (·.advance ys) := by
  induction xs generalizing m with
  | nil => rfl
  | cons x xs ih =>
    simp only [List.cons_append, advance]
    split
    · rfl
    · exact ih (m.next x)

theorem advance_append_of_eq {m m' : Mode} {xs : List Char} (h : m.advance xs = some m')
    (ys : List Char) : m.advance (xs ++ ys) = m'.advance ys := by
  rw [advance_append, h, Option.bind_some]

/-- Whether a character opens nothing and ends nothing. -/
def isOrdinary (c : Char) : Bool :=
  c ≠ '\'' && c ≠ '"' && c ≠ '$' && c ≠ ';'

theorem isOrdinary_of_class {p : Char → Bool} (hQuote : p '\'' = false) (hName : p '"' = false)
    (hDollar : p '$' = false) (hSemicolon : p ';' = false) {c : Char} (h : p c = true) :
    isOrdinary c = true := by
  have hNot : ∀ d : Char, p d = false → c ≠ d := by
    rintro d hd rfl
    rw [hd] at h
    cases h
  simp [isOrdinary, hNot _ hQuote, hNot _ hName, hNot _ hDollar, hNot _ hSemicolon]

theorem next_ordinary {m : Mode} (hm : m.isOutside = true) {c : Char} (hc : isOrdinary c = true) :
    m.next c = plain := by
  simp only [isOrdinary, Bool.and_eq_true, decide_eq_true_eq] at hc
  cases m <;> simp_all [isOutside, next, enter]

theorem advance_ordinary {m : Mode} (hm : m.isOutside = true) {cs : List Char} (hne : cs ≠ [])
    (hcs : ∀ c ∈ cs, isOrdinary c = true) : m.advance cs = some plain := by
  induction cs generalizing m with
  | nil => exact absurd rfl hne
  | cons c cs ih =>
    have hc := hcs c List.mem_cons_self
    have hSemicolon : c ≠ ';' := by rintro rfl; cases hc
    rw [advance, next_ordinary hm hc]
    simp only [hSemicolon, decide_false, Bool.false_and, Bool.false_eq_true, if_false]
    cases cs with
    | nil => rfl
    | cons d ds => exact ih rfl (by simp) fun x hx => hcs x (List.mem_cons_of_mem _ hx)

end Mode

/-- A text that ends outside of everything, and in which no statement ends. -/
def IsWhole (cs : List Char) : Prop :=
  ∃ m, Mode.plain.advance cs = some m ∧ m.isOutside = true

instance (cs : List Char) : Decidable (IsWhole cs) :=
  decidable_of_iff ((Mode.plain.advance cs).any Mode.isOutside = true) (by
    simp [IsWhole, Option.any_eq_true])

def isSpace (c : Char) : Bool :=
  c = ' ' || (9 ≤ c.toNat && c.toNat ≤ 13)

/-- The statements of the rest of a script, when `piece` is what has been read of the present one.
The text after the last semicolon has to be white space. -/
def statementsFrom (m : Mode) (piece : List Char) : List Char → Option (List String)
  | [] => if m.isOutside && piece.all isSpace then some [] else none
  | c :: cs =>
    if c = ';' && m.isOutside then
      (statementsFrom .plain [] cs).map (String.ofList (Text.trimList isSpace piece) :: ·)
    else statementsFrom (m.next c) (piece ++ [c]) cs

/-- The statements of a script, without the white space around them. -/
def statements? (script : String) : Option (List String) :=
  statementsFrom .plain [] script.toList

theorem statementsFrom_append {m m' : Mode} {text : List Char} (h : m.advance text = some m')
    (piece rest : List Char) :
    statementsFrom m piece (text ++ rest) = statementsFrom m' (piece ++ text) rest := by
  induction text generalizing m piece with
  | nil =>
    cases h
    simp
  | cons c cs ih =>
    rw [Mode.advance] at h
    split at h
    · cases h
    · next hc =>
      rw [List.cons_append, statementsFrom, if_neg hc, ih h, List.append_assoc,
        List.singleton_append]

theorem statementsFrom_semicolon {text : List Char} (h : IsWhole text) (piece rest : List Char) :
    statementsFrom .plain piece (text ++ ';' :: rest) =
      (statementsFrom .plain [] rest).map
        (String.ofList (Text.trimList isSpace (piece ++ text)) :: ·) := by
  obtain ⟨m, hm, hOutside⟩ := h
  rw [statementsFrom_append hm, statementsFrom, hOutside]
  rfl

theorem isBlank_of_isSpace {c : Char} (h : isSpace c = true) : Text.isBlank c = true := by
  simp only [isSpace, Bool.or_eq_true, decide_eq_true_eq, Bool.and_eq_true] at h
  rcases h with rfl | ⟨hLow, hHigh⟩
  · decide
  · simp [Text.isBlank, hLow, hHigh]

theorem isOrdinary_of_isSpace {c : Char} (h : isSpace c = true) : Mode.isOrdinary c = true :=
  Mode.isOrdinary_of_class (by decide) (by decide) (by decide) (by decide) h

theorem statementsFrom_space {blanks : List Char} (h : blanks.all isSpace = true)
    (rest : List Char) :
    statementsFrom .plain [] (blanks ++ rest) = statementsFrom .plain blanks rest := by
  cases blanks with
  | nil => rfl
  | cons c cs =>
    exact statementsFrom_append (Mode.advance_ordinary rfl (by simp)
      fun x hx => isOrdinary_of_isSpace (List.all_eq_true.mp h x hx)) [] rest

theorem ofList_trimList_strip {blanks : List Char} (h : blanks.all isSpace = true)
    (s : String) :
    String.ofList (Text.trimList isSpace (blanks ++ (Text.strip s).toList)) = Text.strip s := by
  rw [Text.trimList_append_left (List.all_eq_true.mp h), Text.strip, String.toList_ofList,
    Text.trimList_trimList fun _ => isBlank_of_isSpace]

theorem toList_join_strip (s t : String) (rest : List String) :
    (Text.join StatementSet.separator ((s :: t :: rest).map Text.strip)).toList =
      (Text.strip s).toList ++ ';' :: (['\n', '\n'] ++
        (Text.join StatementSet.separator ((t :: rest).map Text.strip)).toList) := by
  simp [Text.join_cons_cons, StatementSet.separator]

/-- Statements that are whole when they are trimmed are read back in order from their join, when the
last one has its semicolon too. -/
theorem statementsFrom_join (blanks : List Char) (hBlanks : blanks.all isSpace = true)
    (s : String) (rest : List String)
    (hWhole : ∀ x ∈ s :: rest, IsWhole (Text.strip x).toList) :
    statementsFrom .plain blanks
      ((Text.join StatementSet.separator ((s :: rest).map Text.strip)).toList ++ [';', '\n']) =
        some ((s :: rest).map Text.strip) := by
  induction rest generalizing s blanks with
  | nil =>
    have hs := hWhole s List.mem_cons_self
    rw [List.map_singleton, Text.join_singleton, statementsFrom_semicolon hs,
      ofList_trimList_strip hBlanks]
    rfl
  | cons t rest ih =>
    have hs := hWhole s List.mem_cons_self
    have hRest := ih ['\n', '\n'] (by decide) t fun x hx => hWhole x (List.mem_cons_of_mem _ hx)
    rw [toList_join_strip, List.append_assoc, List.cons_append, List.append_assoc,
      statementsFrom_semicolon hs, ofList_trimList_strip hBlanks,
      statementsFrom_space (by decide), hRest]
    rfl

/-- A script is cut into its statements. -/
theorem statements?_script {s : StatementSet}
    (hWhole : ∀ x ∈ s.statements, IsWhole (Text.strip x).toList) :
    statements? s.script = some (s.statements.map Text.strip) := by
  unfold statements? StatementSet.script
  cases hs : s.statements with
  | nil => rfl
  | cons x rest =>
    rw [hs] at hWhole
    simpa using statementsFrom_join [] rfl x rest hWhole

example : statements? "SELECT ';', 'it''s';\n\n CREATE $$ a; '; $$ \";\" ;\n" =
    some ["SELECT ';', 'it''s'", "CREATE $$ a; '; $$ \";\""] := by decide

end SeedScript.Sql
