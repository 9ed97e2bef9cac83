import SeedScript.Proofs.Schema.Calls
import SeedScript.Proofs.Sql.Clauses

/-!
# Reading CREATE TABLE statements

A statement is read back to what it says of the table and of each column. The reader knows the quotes of
names, so that the commas, brackets and words in a name are part of it. A default and the actions of a
foreign key are fragments of SQL and have no quotes: they are found again if they are words. Main
statement: the columns of a table are read back from its statement, whatever their names are. The maximal
length of a column that is not a STRING is not in the statement, so no reader finds it.
-/

namespace SeedScript.Schema

open Sql (Reader quoteName isSpace)
open Sql.Reader

/-- What a statement says of a column. -/
structure Declaration where
  name : String
  type : ColumnType
  limit : Option Int
  isPrimaryKey : Bool
  notNull : Bool
  default : Option String
  references : Option ForeignKey
deriving DecidableEq

structure Creation where
  table : String
  ifNotExists : Bool
  columns : List Declaration
deriving DecidableEq

def ColumnType.sqlWord : ColumnType → String
  | uuid => "UUID"
  | string => "VARCHAR"
  | text => "TEXT"
  | timestamptz => "TIMESTAMPTZ"

def typeEntries : List (List String × ColumnType) :=
  [.uuid, .string, .text, .timestamptz].map fun t => ([t.sqlWord], t)

def standardActions : List (List String) :=
  [["CASCADE"], ["RESTRICT"], ["SET", "NULL"], ["SET", "DEFAULT"], ["NO", "ACTION"]]

def action : Reader String :=
  oneOf (standardActions.map fun words => (words, Text.join " " words))

/-- A limit as it stands behind a type. -/
def bracketed : Option Int → List Char
  | none => []
  | some n => '(' :: ((toString n).toList ++ [')'])

def lengthLimit : Reader (Option Int) := fun cs =>
  match symbol '(' cs with
  | none => some (none, cs)
  | some cs => do
    let (n, cs) ← integer cs
    let cs ← symbol ')' cs
    some (some n, cs)

def ForeignKey.read : Reader ForeignKey := fun cs => do
  let (table, cs) ← name cs
  let (column, cs) ← name (← symbol '(' cs)
  let cs ← symbol ')' cs
  let (onUpdate, cs) ← clause ["ON", "UPDATE"] action cs
  let (onDelete, cs) ← clause ["ON", "DELETE"] action cs
  some (⟨table, column, onUpdate, onDelete⟩, cs)

/-- Whether a column is a primary key, and whether it is declared not to be null. -/
def constraints : Reader (Bool × Bool) := fun cs => do
  let (isPrimaryKey, cs) ← mark ["PRIMARY", "KEY"] cs
  let (notNull, cs) ← mark ["NOT", "NULL"] cs
  some ((isPrimaryKey, notNull), cs)

def Declaration.read : Reader Declaration := fun cs => do
  let (name, cs) ← Reader.name cs
  let (type, cs) ← oneOf typeEntries cs
  let (limit, cs) ← lengthLimit cs
  let ((isPrimaryKey, notNull), cs) ← constraints cs
  let (default, cs) ← clause ["DEFAULT"] fragment cs
  let (references, cs) ← clause ["REFERENCES"] ForeignKey.read cs
  some (⟨name, type, limit, isPrimaryKey, notNull, default, references⟩, cs)

def creation? (statement : String) : Option Creation := do
  let cs ← phrase ["CREATE", "TABLE"] statement.toList
  let (ifNotExists, cs) ← mark ["IF", "NOT", "EXISTS"] cs
  let (table, cs) ← name cs
  let (columns, cs) ← enclosed Declaration.read cs
  if cs.all isSpace then some ⟨table, ifNotExists, columns⟩ else none

/-! ## What is to be read -/

/-- A foreign key with the actions that are not empty. -/
def ForeignKey.given (k : ForeignKey) : ForeignKey :=
  { k with
    onUpdate := k.onUpdate.filter (· ≠ "")
    onDelete := k.onDelete.filter (· ≠ "") }

/-- The length that a column is limited to. Only strings have one, and zero is none. -/
def Column.limit (c : Column) : Option Int :=
  if c.type = .string then c.maxLength.filter (· ≠ 0) else none

def Column.declaration (c : Column) : Declaration where
  name := c.name
  type := c.type
  limit := c.limit
  isPrimaryKey := c.isPrimaryKey
  notNull := !c.nullable && !c.isPrimaryKey
  default := c.default.filter (· ≠ "")
  references := c.references.map ForeignKey.given

/-- A name that stands for itself in a statement: behind a bare name, one line feed would be lost. -/
def IsLegibleName (n : String) : Prop :=
  n.toList.getLast? ≠ some '\n'

structure ForeignKey.IsLegible (k : ForeignKey) : Prop where
  table : IsLegibleName k.table
  column : IsLegibleName k.column
  actions : ∀ a ∈ k.onUpdate.toList ++ k.onDelete.toList,
    a = "" ∨ a ∈ standardActions.map (Text.join " ")

/-- A column whose default has neither white space nor commas, and whose reference is to legible names
with standard actions, if any. -/
structure Column.IsLegible (c : Column) : Prop where
  name : IsLegibleName c.name
  default : ∀ d ∈ c.default, d.toList.all isFragmentPart = true
  references : ∀ k ∈ c.references, k.IsLegible

structure Table.IsLegible (t : Table) : Prop where
  name : IsLegibleName t.name
  nonempty : t.columns ≠ []
  columns : ∀ c ∈ t.columns, c.IsLegible

instance (n : String) : Decidable (IsLegibleName n) :=
  inferInstanceAs (Decidable (_ ≠ _))

instance (k : ForeignKey) : Decidable k.IsLegible :=
  decidable_of_iff (IsLegibleName k.table ∧ IsLegibleName k.column ∧
    ∀ a ∈ k.onUpdate.toList ++ k.onDelete.toList, a = "" ∨ a ∈ standardActions.map (Text.join " "))
    ⟨fun h => ⟨h.1, h.2.1, h.2.2⟩, fun h => ⟨h.table, h.column, h.actions⟩⟩

instance (c : Column) : Decidable c.IsLegible :=
  decidable_of_iff (IsLegibleName c.name ∧ (∀ d ∈ c.default, d.toList.all isFragmentPart = true) ∧
    ∀ k ∈ c.references, k.IsLegible)
    ⟨fun h => ⟨h.1, h.2.1, h.2.2⟩, fun h => ⟨h.name, h.default, h.references⟩⟩

instance (t : Table) : Decidable t.IsLegible :=
  decidable_of_iff (IsLegibleName t.name ∧ t.columns ≠ [] ∧ ∀ c ∈ t.columns, c.IsLegible)
    ⟨fun h => ⟨h.1, h.2.1, h.2.2⟩, fun h => ⟨h.name, h.nonempty, h.columns⟩⟩

/-! ## Reading what is written -/

variable {initials rest : List Char}

theorem typeEntries_isUnambiguous : IsUnambiguous typeEntries := by decide

theorem actions_isUnambiguous :
    IsUnambiguous (standardActions.map fun words => (words, Text.join " " words)) := by decide

theorem oneOf_typeEntries (t : ColumnType) (h : EndsToken rest) :
    oneOf typeEntries (written [t.sqlWord] ++ rest) = some (t, rest) := by
  have hMem : ([t.sqlWord], t) ∈ typeEntries := by cases t <;> decide
  rw [oneOf_written_append typeEntries_isUnambiguous hMem h]

theorem action_blank_append {a : String} (ha : a ∈ standardActions.map (Text.join " "))
    (h : EndsToken rest) : action (' ' :: (a.toList ++ rest)) = some (a, rest) := by
  obtain ⟨words, hWords, rfl⟩ := List.mem_map.mp ha
  have hText : ' ' :: ((Text.join " " words).toList ++ rest) = written words ++ rest := by
    cases words with
    | nil => exact absurd hWords (by decide)
    | cons w words => rw [toList_join_blank, written_cons, List.cons_append]
  have hMem : (words, Text.join " " words) ∈
      standardActions.map fun words => (words, Text.join " " words) :=
    List.mem_map.mpr ⟨words, hWords, rfl⟩
  rw [hText, action, oneOf_written_append actions_isUnambiguous hMem h]

theorem written_sqlType (c : Column) :
    written [c.sqlType] = written [c.type.sqlWord] ++ bracketed c.limit := by
  rw [Column.limit, Column.sqlType]
  cases c.type with
  | string =>
    cases c.maxLength with
    | none => rfl
    | some n =>
      by_cases hn : n = 0
      · subst hn
        rfl
      · simp [hn, ColumnType.sqlWord, written, bracketed, Option.filter]
  | uuid | text | timestamptz => simp [ColumnType.sqlWord, bracketed]

theorem endsToken_bracketed_append (l : Option Int) (h : EndsToken rest) :
    EndsToken (bracketed l ++ rest) := by
  cases l with
  | none => exact h
  | some n => exact endsToken_cons (by simp) _

theorem lengthLimit_bracketed_append (l : Option Int) (h : GoesOn initials rest)
    (hOpen : '(' ∉ initials) : lengthLimit (bracketed l ++ rest) = some (l, rest) := by
  cases l with
  | none =>
    obtain ⟨c, hc, hNext⟩ := h.starts
    have hNe : c ≠ '(' := fun hEq => hOpen (hEq ▸ hc)
    rw [bracketed, List.nil_append, lengthLimit, symbol_of_next hNext hNe]
  | some n =>
    have hText : bracketed (some n) ++ rest = '(' :: ((toString n).toList ++ ')' :: rest) := by
      simp [bracketed]
    have hClose : EndsToken (')' :: rest) := endsToken_cons (by simp) _
    rw [hText, lengthLimit, symbol_cons_self (by decide)]
    simp only [integer_append n hClose, symbol_cons_self (c := ')') (by decide),
      Option.bind_eq_bind, Option.bind_some]

theorem optionalClause_cases (keyword : String) (fragment : Option String) :
    (optionalClause keyword fragment = [] ∧ fragment.filter (· ≠ "") = none) ∨
    ∃ text, text ≠ "" ∧ fragment = some text ∧ optionalClause keyword fragment = [keyword ++ text] := by
  cases fragment with
  | none => exact .inl ⟨rfl, rfl⟩
  | some text =>
    by_cases hEmpty : text = ""
    · exact .inl (by simp [optionalClause, hEmpty, Option.filter])
    · exact .inr ⟨text, hEmpty, rfl, by simp [optionalClause, hEmpty]⟩

/-- A clause whose keyword is the given words and a blank. -/
theorem written_clause_append {words : List String} {keyword : String}
    (hKeyword : ' ' :: keyword.toList = written words ++ [' ']) (text : String) (rest : List Char) :
    written [keyword ++ text] ++ rest = written words ++ ' ' :: (text.toList ++ rest) := by
  calc written [keyword ++ text] ++ rest
      = (' ' :: keyword.toList) ++ (text.toList ++ rest) := by simp [written]
    _ = written words ++ ' ' :: (text.toList ++ rest) := by rw [hKeyword]; simp

/-- A clause is read exactly if its fragment is given and not empty. -/
theorem clause_optionalClause {words : List String} {keyword : String} {item : Reader String}
    (hWords : ∀ w ∈ words, IsKeyword w) (hKeyword : ' ' :: keyword.toList = written words ++ [' '])
    (fragment : Option String)
    (hItem : ∀ text ∈ fragment, text ≠ "" → item (' ' :: (text.toList ++ rest)) = some (text, rest))
    (hAbsent : phrase words rest = none) :
    clause words item (written (optionalClause keyword fragment) ++ rest) =
      some (fragment.filter (· ≠ ""), rest) := by
  rcases optionalClause_cases keyword fragment with ⟨hNil, hNone⟩ | ⟨text, hne, rfl, hOne⟩
  · rw [hNil, hNone]
    exact clause_of_phrase_eq_none hAbsent
  · rw [hOne, written_clause_append hKeyword, clause_self hWords (endsToken_cons (by simp) _)
      (hItem text rfl hne)]
    simp [Option.filter, hne]

theorem goesOn_optionalClause {keyword : String} {c : Char} (hFirst : keyword.toList.head? = some c)
    (hSpace : isSpace c = false) (fragment : Option String) (h : GoesOn initials rest) :
    GoesOn (c :: initials) (written (optionalClause keyword fragment) ++ rest) := by
  refine goesOn_written_append ?_ (h.mono (List.subset_cons_self _ _))
  intro x hx
  rcases optionalClause_cases keyword fragment with ⟨hNil, -⟩ | ⟨text, -, -, hOne⟩
  · rw [hNil] at hx
    cases hx
  · rw [hOne] at hx
    cases hx
    exact ⟨c, List.mem_cons_self, Text.head?_append_of_eq hFirst text, hSpace⟩

theorem phrase_onUpdate_eq_none (fragment : Option String) (h : GoesOn [',', ')'] rest) :
    phrase ["ON", "UPDATE"] (written (optionalClause "ON DELETE " fragment) ++ rest) = none := by
  rcases optionalClause_cases "ON DELETE " fragment with ⟨hNil, -⟩ | ⟨text, -, -, hOne⟩
  · rw [hNil]
    exact phrase_of_goesOn h rfl (by decide)
  · have hText : ' ' :: "ON DELETE ".toList = written ["ON", "DELETE"] ++ [' '] := rfl
    have hOther : ["ON", "UPDATE"] ≠ ["ON", "DELETE"] := by decide
    rw [hOne, written_clause_append hText,
      phrase_written_append (by decide) (by decide) (endsToken_cons (by simp) _), if_neg hOther]

theorem clause_onDelete {k : ForeignKey} (hLegible : k.IsLegible) (h : GoesOn [',', ')'] rest) :
    clause ["ON", "DELETE"] action (written (optionalClause "ON DELETE " k.onDelete) ++ rest) =
      some (k.given.onDelete, rest) := by
  refine clause_optionalClause (by decide) rfl _ ?_ (phrase_of_goesOn h rfl (by decide))
  intro a ha hne
  have hAction := hLegible.actions a (List.mem_append_right _ (Option.mem_toList.mpr ha))
  exact action_blank_append (hAction.resolve_left hne) h.endsToken

theorem clause_onUpdate {k : ForeignKey} (hLegible : k.IsLegible) (h : GoesOn [',', ')'] rest) :
    clause ["ON", "UPDATE"] action (written (optionalClause "ON UPDATE " k.onUpdate) ++
        (written (optionalClause "ON DELETE " k.onDelete) ++ rest)) =
      some (k.given.onUpdate, written (optionalClause "ON DELETE " k.onDelete) ++ rest) := by
  refine clause_optionalClause (by decide) rfl _ ?_ (phrase_onUpdate_eq_none _ h)
  intro a ha hne
  have hAction := hLegible.actions a (List.mem_append_left _ (Option.mem_toList.mpr ha))
  exact action_blank_append (hAction.resolve_left hne) (endsToken_written_append h.endsToken _)

theorem ForeignKey.read_clauses {k : ForeignKey} (hLegible : k.IsLegible) (h : GoesOn [',', ')'] rest) :
    clause ["REFERENCES"] ForeignKey.read (written k.clauses ++ rest) = some (some k.given, rest) := by
  have hTable : ∀ cs, name (' ' :: ((quoteName k.table).toList ++ '(' :: cs)) =
      some (k.table, '(' :: cs) := fun cs =>
    reads_quoteName hLegible.table [' '] _ rfl (endsToken_cons (by simp) cs)
  have hColumn : ∀ cs, name ((quoteName k.column).toList ++ ')' :: cs) = some (k.column, ')' :: cs) :=
    fun cs => reads_quoteName hLegible.column [] _ rfl (endsToken_cons (by simp) cs)
  have hText : written k.clauses ++ rest = written ["REFERENCES"] ++
      ' ' :: ((quoteName k.table).toList ++ '(' :: ((quoteName k.column).toList ++
        ')' :: (written (optionalClause "ON UPDATE " k.onUpdate) ++
          (written (optionalClause "ON DELETE " k.onDelete) ++ rest)))) := by
    simp [ForeignKey.clauses, written]
  rw [hText]
  refine clause_self (by decide) (endsToken_cons (by simp) _) ?_
  simp only [ForeignKey.read, hTable, hColumn, symbol_cons_self (c := '(') (by decide),
    symbol_cons_self (c := ')') (by decide), clause_onUpdate hLegible h, clause_onDelete hLegible h,
    Option.bind_eq_bind, Option.bind_some]
  rfl

theorem goesOn_constraint (c : Column) (h : GoesOn initials rest) :
    GoesOn ('P' :: 'N' :: initials) (written c.constraint ++ rest) := by
  refine goesOn_written_append ?_ (h.mono fun _ hc => .tail _ (.tail _ hc))
  intro x hx
  rw [Column.constraint] at hx
  split at hx
  · cases hx
    exact ⟨'P', by simp, rfl, rfl⟩
  · split at hx
    · cases hx
    · cases hx
      exact ⟨'N', by simp, rfl, rfl⟩

theorem constraints_constraint (c : Column) (h : GoesOn ['D', 'R', ',', ')'] rest) :
    constraints (written c.constraint ++ rest) =
      some ((c.isPrimaryKey, !c.nullable && !c.isPrimaryKey), rest) := by
  have hKey : mark ["PRIMARY", "KEY"] rest = some (false, rest) :=
    mark_of_phrase_eq_none (phrase_of_goesOn h rfl (by decide))
  have hNull : mark ["NOT", "NULL"] rest = some (false, rest) :=
    mark_of_phrase_eq_none (phrase_of_goesOn h rfl (by decide))
  rw [constraints, Column.constraint]
  cases c.isPrimaryKey with
  | true =>
    have hText : written ["PRIMARY KEY"] = written ["PRIMARY", "KEY"] := by decide
    have hWords : ∀ w ∈ ["PRIMARY", "KEY"], IsKeyword w := by decide
    rw [if_pos rfl, hText, mark_self hWords h.endsToken]
    simp [hNull]
  | false =>
    cases c.nullable with
    | true => simp [written, hKey, hNull]
    | false =>
      have hText : written ["NOT NULL"] = written ["NOT", "NULL"] := by decide
      have hWords : ∀ w ∈ ["NOT", "NULL"], IsKeyword w := by decide
      have hOther : ["PRIMARY", "KEY"] ≠ ["NOT", "NULL"] := by decide
      have hNone : phrase ["PRIMARY", "KEY"] (written ["NOT", "NULL"] ++ rest) = none := by
        rw [phrase_written_append hWords (by decide) h.endsToken, if_neg hOther]
      simp [hText, mark_of_phrase_eq_none hNone, mark_self hWords h.endsToken]

theorem clause_default {c : Column} (hLegible : c.IsLegible) (h : GoesOn ['R', ',', ')'] rest) :
    clause ["DEFAULT"] fragment (written (optionalClause "DEFAULT " c.default) ++ rest) =
      some (c.default.filter (· ≠ ""), rest) := by
  refine clause_optionalClause (by decide) rfl _ ?_ (phrase_of_goesOn h rfl (by decide))
  intro text hText hne
  exact fragment_blank_append hne (List.all_eq_true.mp (hLegible.default text hText)) h

def Column.referenceClauses (c : Column) : List String :=
  match c.references with
  | none => []
  | some k => k.clauses

theorem goesOn_referenceClauses (c : Column) (h : GoesOn initials rest) :
    GoesOn ('R' :: initials) (written c.referenceClauses ++ rest) := by
  refine goesOn_written_append ?_ (h.mono (List.subset_cons_self _ _))
  intro x hx
  rw [Column.referenceClauses] at hx
  cases hKey : c.references with
  | none => simp [hKey] at hx
  | some k =>
    rw [hKey] at hx
    cases hx
    exact ⟨'R', List.mem_cons_self, by simp, rfl⟩

theorem clause_references {c : Column} (hLegible : c.IsLegible) (h : GoesOn [',', ')'] rest) :
    clause ["REFERENCES"] ForeignKey.read (written c.referenceClauses ++ rest) =
      some (c.references.map ForeignKey.given, rest) := by
  rw [Column.referenceClauses]
  cases hKey : c.references with
  | none => exact clause_of_phrase_eq_none (phrase_of_goesOn h rfl (by decide))
  | some k => exact ForeignKey.read_clauses (hLegible.references k hKey) h

theorem toList_definition (c : Column) (rest : List Char) : c.definition.toList ++ rest =
    (quoteName c.name).toList ++ (written [c.type.sqlWord] ++ (bracketed c.limit ++
      (written c.constraint ++ (written (optionalClause "DEFAULT " c.default) ++
        (written c.referenceClauses ++ rest))))) := by
  have hClauses : c.clauses = quoteName c.name :: ([c.sqlType] ++ c.constraint ++
      optionalClause "DEFAULT " c.default ++ c.referenceClauses) := rfl
  rw [Column.definition, hClauses, toList_join_blank]
  simp only [written_append, written_sqlType, List.append_assoc]

/-- What a column definition says is read from it, wherever the definition stands in a list of them. -/
theorem Declaration.read_definition {c : Column} (hLegible : c.IsLegible) (blanks rest : List Char)
    (hBlanks : blanks.all isSpace = true) (h : GoesOn [',', ')'] rest) :
    Declaration.read (blanks ++ (c.definition.toList ++ rest)) = some (c.declaration, rest) := by
  -- What stands behind each part, from the end of the text, and what it can go on with.
  have hDefault : GoesOn ['R', ',', ')'] _ := goesOn_referenceClauses c h
  have hFirst : "DEFAULT ".toList.head? = some 'D' := rfl
  have hConstraint := goesOn_optionalClause hFirst rfl c.default hDefault
  have hLimit : GoesOn ['P', 'N', 'D', 'R', ',', ')'] _ := goesOn_constraint c hConstraint
  have hType := endsToken_bracketed_append c.limit hLimit.endsToken
  have hName := reads_quoteName hLegible.name blanks _ hBlanks
    (endsToken_written_append hType [c.type.sqlWord])
  rw [toList_definition]
  simp only [Declaration.read, hName, oneOf_typeEntries c.type hType,
    lengthLimit_bracketed_append c.limit hLimit (by decide), constraints_constraint c hConstraint,
    clause_default hLegible hDefault, clause_references hLegible h, Option.bind_eq_bind,
    Option.bind_some]
  rfl

theorem isSpace_of_isNamePart {c : Char} (h : Sql.isNamePart c = true) : isSpace c = false := by
  by_contra hSpace
  have hBlank := Sql.isBlank_of_isSpace (eq_true_of_ne_false hSpace)
  rw [Sql.isBlank_of_isNamePart h] at hBlank
  cases hBlank

/-- Behind the letters that a bare name starts with, no other word stands. -/
theorem next_dropWhile_isAlpha {n : List Char} (h : ∀ c ∈ n, isSpace c = false) (rest : List Char) :
    ∃ c, next ((n ++ ' ' :: '(' :: rest).dropWhile Char.isAlpha) = some c ∧ c.isAlpha = false := by
  induction n with
  | nil => exact ⟨'(', rfl, rfl⟩
  | cons c cs ih =>
    cases hAlpha : c.isAlpha with
    | true =>
      rw [List.cons_append, List.dropWhile_cons_of_pos hAlpha]
      exact ih fun d hd => h d (List.mem_cons_of_mem _ hd)
    | false =>
      rw [List.cons_append, List.dropWhile_cons_of_neg (by simp [hAlpha])]
      have hNext := next_append List.all_nil (h c List.mem_cons_self) (cs ++ ' ' :: '(' :: rest)
      exact ⟨c, hNext, hAlpha⟩

/-- No name is taken for the words in front of it, not even `if`. -/
theorem phrase_ifNotExists_eq_none {n : String} (h : IsLegibleName n) (rest : List Char) :
    phrase ["IF", "NOT", "EXISTS"] (' ' :: ((quoteName n).toList ++ ' ' :: '(' :: rest)) = none := by
  unfold quoteName
  split
  · next hBare =>
    have hBare : Sql.isBareName n = true := by simpa using hBare
    have hParts : ∀ c ∈ n.toList, isSpace c = false := fun c hc =>
      isSpace_of_isNamePart (Sql.isNamePart_of_mem_bareName hBare h c hc)
    have hne : n.toList ≠ [] := by
      intro hNil
      simp [Sql.isBareName, hNil] at hBare
    obtain ⟨c, hNext, hAlpha⟩ := next_dropWhile_isAlpha hParts rest
    have hNot : phrase ["NOT", "EXISTS"]
        ((n.toList ++ ' ' :: '(' :: rest).dropWhile Char.isAlpha) = none :=
      phrase_of_next hNext rfl fun hLetter => absurd hLetter (by simp [hAlpha])
    rw [phrase, List.foldlM_cons, keyword, dropWhile_blank_append hne hParts]
    split
    · exact hNot
    · rfl
  · have hQuote : next ((' ' :: ((Sql.delimitName n).toList ++ ' ' :: '(' :: rest))) = some '"' := by
      simp [Sql.delimitName, next, isSpace]
    exact phrase_of_next hQuote rfl (by decide)

/-- What stands behind the opening bracket of a statement. -/
def columnList (columns : List Column) : List Char :=
  ['\n'] ++ ((Text.join ",\n" (columns.map fun c => "  " ++ c.definition)).toList ++ ['\n', ')'])

theorem toList_createStatement (t : Table) (ifNotExists : Bool) :
    ' ' :: (t.createStatement ifNotExists).toList = written ["CREATE", "TABLE"] ++
      (written (if ifNotExists then ["IF", "NOT", "EXISTS"] else []) ++
        ' ' :: ((quoteName t.name).toList ++ ' ' :: '(' :: columnList t.columns)) := by
  cases ifNotExists <;> simp [Table.createStatement, Text.join, written, columnList]

theorem mark_ifNotExists {n : String} (h : IsLegibleName n) (ifNotExists : Bool) (rest : List Char) :
    mark ["IF", "NOT", "EXISTS"] (written (if ifNotExists then ["IF", "NOT", "EXISTS"] else []) ++
      ' ' :: ((quoteName n).toList ++ ' ' :: '(' :: rest)) =
    some (ifNotExists, ' ' :: ((quoteName n).toList ++ ' ' :: '(' :: rest)) := by
  cases ifNotExists with
  | true => exact mark_self (by decide) (endsToken_cons (by simp) _)
  | false => exact mark_of_phrase_eq_none (phrase_ifNotExists_eq_none h rest)

theorem enclosed_columnList {columns : List Column} (hne : columns ≠ [])
    (hLegible : ∀ c ∈ columns, c.IsLegible) :
    enclosed Declaration.read (' ' :: '(' :: columnList columns) =
      some (columns.map Column.declaration, []) := by
  have hComma : ∀ cs, GoesOn [',', ')'] (',' :: cs) := fun cs => ⟨by simp, ',', by simp, rfl⟩
  have hEnd : GoesOn [',', ')'] ['\n', ')'] := ⟨by simp, ')', by simp, rfl⟩
  have hItem : ∀ c ∈ columns, ∀ blanks rest, blanks.all isSpace = true → GoesOn [',', ')'] rest →
      Declaration.read (blanks ++ (("  " ++ c.definition).toList ++ rest)) =
        some (c.declaration, rest) := by
    intro c hc blanks rest hBlanks hRest
    have hIndent : blanks ++ (("  " ++ c.definition).toList ++ rest) =
        (blanks ++ [' ', ' ']) ++ (c.definition.toList ++ rest) := by simp
    have hSpaces : (blanks ++ [' ', ' ']).all isSpace = true := by
      rw [List.all_append, hBlanks]
      rfl
    rw [hIndent, Declaration.read_definition (hLegible c hc) _ _ hSpaces hRest]
  have hOpen : symbol '(' (' ' :: '(' :: columnList columns) = some (columnList columns) := rfl
  have hClose : symbol ')' ['\n', ')'] = some [] := rfl
  have hSeparator : ",\n".toList = ',' :: ['\n'] := rfl
  have hLength : columns.length ≤ (columnList columns).length + 1 := by
    have hJoin := length_le_length_join (fun c : Column => "  " ++ c.definition) ",\n" (by decide) columns
    simp only [columnList, List.length_append]
    omega
  have hColumns : sequence Declaration.read (columnList columns) =
      some (columns.map Column.declaration, ['\n', ')']) :=
    upTo_join_map Column.declaration hSeparator rfl hComma hne hItem hLength rfl hEnd rfl
  simp only [enclosed, hOpen, hColumns, hClose, Option.bind_eq_bind, Option.bind_some]

/-- What the statement of a table says of it is read from the statement. -/
theorem creation?_createStatement {t : Table} (h : t.IsLegible) (ifNotExists : Bool) :
    creation? (t.createStatement ifNotExists) =
      some ⟨t.name, ifNotExists, t.columns.map Column.declaration⟩ := by
  have hFirst : phrase ["CREATE", "TABLE"] (t.createStatement ifNotExists).toList =
      phrase ["CREATE", "TABLE"] (' ' :: (t.createStatement ifNotExists).toList) := rfl
  have hName : name (' ' :: ((quoteName t.name).toList ++ ' ' :: '(' :: columnList t.columns)) =
      some (t.name, ' ' :: '(' :: columnList t.columns) :=
    reads_quoteName h.name [' '] _ rfl (endsToken_cons (by simp) _)
  rw [creation?, hFirst, toList_createStatement,
    phrase_self (by decide) (endsToken_written_append (endsToken_cons (by simp) _) _)]
  simp only [Option.bind_eq_bind, Option.bind_some, mark_ifNotExists h.name, hName,
    enclosed_columnList h.nonempty h.columns]
  rfl

namespace Registry

/-- Whatever its columns are called, the statement of a registered table determines them: a reader that
knows the quotes of names finds the name of the table, whether it may exist already, and each column in
its place with its name, its type, its limit, its constraints, its default and its reference. -/
theorem columns_of_createStatement (r : Registry) {t : Table} (hMem : t ∈ r.tables)
    (hLegible : t.IsLegible) (ifNotExists : Bool) :
    ∃ text, r.createStatement t.name ifNotExists = .ok text ∧
      creation? text = some ⟨t.name, ifNotExists, t.columns.map Column.declaration⟩ := by
  have hGet : r.get t.name = .ok t := get_eq_ok_iff.mpr ⟨hMem, rfl⟩
  refine ⟨t.createStatement ifNotExists, ?_, creation?_createStatement hLegible ifNotExists⟩
  rw [createStatement, hGet]
  rfl

/-- A table whose names hold all that a statement is made of. -/
def contrived : Table where
  name := "if"
  columns := [
    ⟨"a\",\n  b TEXT (NOT NULL)", .string, true, some (-5), some "NOW()", false,
      some ⟨"PRIMARY KEY", "say \"no\"", some "SET NULL", some ""⟩, ""⟩,
    ⟨"", .string, true, some 12, some "", true, some ⟨"not", "if", none, some "NO ACTION"⟩, ""⟩,
    ⟨"on_delete", .uuid, false, some 12, some "REFERENCES", false, none, ""⟩,
    ⟨"key\n)", .timestamptz, false, none, some ")", true, none, ""⟩]

def contrivedOnly : Registry where
  tables := [contrived]
  nodup := by decide
  defined := by decide

theorem columns_of_createStatement_contrived :
    contrived ∈ contrivedOnly.tables ∧ contrived.IsLegible ∧
    ∃ text, contrivedOnly.createStatement "if" false = .ok text ∧ creation? text = some ⟨"if", false, [
      ⟨"a\",\n  b TEXT (NOT NULL)", .string, some (-5), false, false, some "NOW()",
        some ⟨"PRIMARY KEY", "say \"no\"", some "SET NULL", none⟩⟩,
      ⟨"", .string, some 12, true, false, none, some ⟨"not", "if", none, some "NO ACTION"⟩⟩,
      ⟨"on_delete", .uuid, none, false, true, some "REFERENCES", none⟩,
      ⟨"key\n)", .timestamptz, none, true, false, some ")", none⟩]⟩ := by
  have hMem : contrived ∈ contrivedOnly.tables := List.mem_singleton_self _
  have hLegible : contrived.IsLegible := by decide
  exact ⟨hMem, hLegible, columns_of_createStatement contrivedOnly hMem hLegible false⟩

/-- A table of one TEXT column with a maximal length. -/
def remarks (maxLength : Int) : Table where
  name := "remarks"
  columns := [⟨"remark", .text, true, some maxLength, none, false, none, ""⟩]
  insertColumns := ["remark"]

def remarksOnly (maxLength : Int) : Registry where
  tables := [remarks maxLength]
  nodup := List.nodup_singleton _
  defined := by
    intro t hMem
    cases List.mem_singleton.mp hMem
    rfl

theorem isLegible_remarks (maxLength : Int) : (remarks maxLength).IsLegible where
  name := by
    have hName : IsLegibleName "remarks" := by decide
    exact hName
  nonempty := List.cons_ne_nil _ _
  columns := by
    intro c hMem
    cases List.mem_singleton.mp hMem
    have hName : IsLegibleName "remark" := by decide
    exact ⟨hName, by rintro _ ⟨⟩, by rintro _ ⟨⟩⟩

/-- No reader finds the maximal length of a column that is not a STRING: two tables that differ in it have
the same statement. -/
theorem maxLength_not_determined : ¬ ∃ read : String → Option Creation,
    ∀ (r : Registry), ∀ t ∈ r.tables, t.IsLegible →
      (∀ c ∈ t.columns, c.default = none ∧ c.references = none) →
      ∀ ifNotExists text, r.createStatement t.name ifNotExists = .ok text →
        read text = some ⟨t.name, ifNotExists, t.columns.map fun c =>
          { c.declaration with limit := c.maxLength.filter (· ≠ 0) }⟩ := by
  rintro ⟨read, hRead⟩
  have hLimit : ∀ n : Int, read (remarks n).createStatement = some ⟨"remarks", true,
      [⟨"remark", .text, (some n).filter (· ≠ 0), false, false, none, none⟩]⟩ := by
    intro n
    have hColumns : ∀ c ∈ (remarks n).columns, c.default = none ∧ c.references = none := by
      simp [remarks]
    exact hRead (remarksOnly n) (remarks n) (List.mem_singleton_self _) (isLegible_remarks n) hColumns
      true _ rfl
  have hSame : (remarks 10).createStatement = (remarks 20).createStatement := rfl
  have hTen := hLimit 10
  rw [hSame, hLimit 20] at hTen
  simp [Option.filter] at hTen

end Registry
end SeedScript.Schema
