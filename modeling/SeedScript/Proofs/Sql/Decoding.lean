import Mathlib.Data.List.Forall2
import SeedScript.Proofs.Sql.Insertion

/-!
# Decoding INSERT statements

What follows the header of an INSERT statement is a list of lists of literals. The relations say which
texts are such lists and of what, apart from any reader: between the tokens there can be white space, and
inside a literal two quotes stand for one. The readers find whatever a text is related to, so it is
related to one thing at most. Main statement: what follows the header is related to the cells of the rows
and to nothing else, whatever the cells hold.
-/

namespace SeedScript.Sql

/-- A text inside single quotes, and what it stands for. -/
inductive Doubled : List Char → List Char → Prop
  | nil : Doubled [] []
  | quote {cs ds : List Char} : Doubled cs ds → Doubled ('\'' :: '\'' :: cs) ('\'' :: ds)
  | plain {c : Char} {cs ds : List Char} : c ≠ '\'' → Doubled cs ds → Doubled (c :: cs) (c :: ds)

def IsLiteral (cs : List Char) (text : String) : Prop :=
  ∃ body, Doubled body text.toList ∧ cs = '\'' :: (body ++ ['\''])

/-- Items with commas between them, and white space around the commas. -/
inductive Listed {α : Type} (item : List Char → α → Prop) : List Char → List α → Prop
  | one {cs : List Char} {x : α} : item cs x → Listed item cs [x]
  | cons {cs before after rest : List Char} {x : α} {xs : List α} : item cs x →
      before.all isSpace = true → after.all isSpace = true → Listed item rest xs →
      Listed item (cs ++ (before ++ ',' :: (after ++ rest))) (x :: xs)

inductive Enclosed {α : Type} (item : List Char → α → Prop) : List Char → List α → Prop
  | intro {before cs after : List Char} {xs : List α} : before.all isSpace = true →
      after.all isSpace = true → Listed item cs xs →
      Enclosed item ('(' :: (before ++ (cs ++ (after ++ [')'])))) xs

/-- A text that can stand behind an item of a list. -/
def Follows (rest : List Char) : Prop :=
  ∀ c, rest.head? = some c → isSpace c = true ∨ c = ',' ∨ c = ')'

/-- A reader finds whatever a text is related to, and leaves what stands behind it. -/
def Finds {α : Type} (r : Reader α) (item : List Char → α → Prop) : Prop :=
  ∀ {cs x blanks rest}, item cs x → blanks.all isSpace = true → Follows rest →
    r (blanks ++ (cs ++ rest)) = some (x, rest)

theorem follows_append {blanks : List Char} (h : blanks.all isSpace = true) {c : Char}
    (hc : c = ',' ∨ c = ')') (cs : List Char) : Follows (blanks ++ c :: cs) := by
  intro d hd
  cases blanks with
  | nil =>
    cases hd
    exact .inr hc
  | cons b bs =>
    cases hd
    rw [List.all_cons, Bool.and_eq_true] at h
    exact .inl h.1

theorem head?_ne_quote_of_follows {rest : List Char} (h : Follows rest) : rest.head? ≠ some '\'' := by
  intro hHead
  rcases h _ hHead with h | h | h
  · exact absurd h (by decide)
  · cases h
  · cases h

namespace Reader

theorem symbol_append_of_ne {blanks : List Char} (h : blanks.all isSpace = true) {c d : Char}
    (hd : isSpace d = false) (hne : d ≠ c) (cs : List Char) : symbol c (blanks ++ d :: cs) = none := by
  simp [symbol, dropWhile_space_append h hd, hne]

theorem quoted_of_doubled {body text rest : List Char} (h : Doubled body text)
    (hRest : rest.head? ≠ some '\'') : quoted '\'' (body ++ '\'' :: rest) = some (text, rest) := by
  induction h with
  | nil =>
    cases rest with
    | nil => simp [quoted]
    | cons d ds =>
      have hd : d ≠ '\'' := fun h => hRest (by rw [h]; rfl)
      simp [quoted, hd]
  | quote _ ih =>
    rw [List.cons_append, List.cons_append, quoted_double, ih]
    rfl
  | plain hc _ ih =>
    rw [List.cons_append, quoted_cons_of_ne hc, ih]
    rfl

theorem finds_literal : Finds literal IsLiteral := by
  intro cs text blanks rest h hBlanks hRest
  obtain ⟨body, hBody, rfl⟩ := h
  rw [List.cons_append, literal, symbol_append _ hBlanks (by decide)]
  simp only [Option.bind_eq_bind, Option.bind_some, List.append_assoc, List.singleton_append]
  rw [quoted_of_doubled hBody (head?_ne_quote_of_follows hRest)]
  simp

variable {α : Type} {r : Reader α} {item : List Char → α → Prop}

theorem length_le_of_listed {cs : List Char} {xs : List α} (h : Listed item cs xs) :
    xs.length ≤ cs.length + 1 := by
  induction h with
  | one => simp
  | cons _ _ _ _ ih =>
    simp only [List.length_append, List.length_cons]
    omega

/-- The induction is on the list, and what is in front of each item is the white space behind the comma. -/
theorem upTo_of_listed (hFinds : Finds r item) {cs : List Char} {xs : List α} (h : Listed item cs xs)
    {n : Nat} (hn : xs.length ≤ n) {blanks rest : List Char} (hBlanks : blanks.all isSpace = true)
    (hRest : Follows rest) (hComma : symbol ',' rest = none) :
    upTo r n (blanks ++ (cs ++ rest)) = some (xs, rest) := by
  induction h generalizing n blanks with
  | one hItem =>
    obtain ⟨n, rfl⟩ : ∃ m, n = m + 1 := ⟨n - 1, by simp at hn; omega⟩
    rw [upTo, hFinds hItem hBlanks hRest]
    simp only [hComma]
  | @cons cs before after tail x xs hItem hBefore hAfter _ ih =>
    obtain ⟨n, rfl⟩ : ∃ m, n = m + 1 := ⟨n - 1, by simp at hn; omega⟩
    have hTail := ih (n := n) (by simpa using hn) hAfter
    have hText : cs ++ (before ++ ',' :: (after ++ tail)) ++ rest =
        cs ++ (before ++ ',' :: (after ++ (tail ++ rest))) := by simp
    rw [hText, upTo, hFinds hItem hBlanks (follows_append hBefore (.inl rfl) _)]
    simp only [symbol_append before hBefore (c := ',') (by decide), hTail]
    rfl

theorem sequence_of_listed (hFinds : Finds r item) {cs : List Char} {xs : List α}
    (h : Listed item cs xs) {blanks rest : List Char} (hBlanks : blanks.all isSpace = true)
    (hRest : Follows rest) (hComma : symbol ',' rest = none) :
    sequence r (blanks ++ (cs ++ rest)) = some (xs, rest) := by
  have hLength := length_le_of_listed h
  refine upTo_of_listed hFinds h ?_ hBlanks hRest hComma
  simp only [List.length_append]
  omega

theorem finds_enclosed (hFinds : Finds r item) : Finds (enclosed r) (Enclosed item) := by
  intro cs xs blanks rest h hBlanks _
  cases h with
  | @intro before cs after _ hBefore hAfter hListed =>
    have hText : '(' :: (before ++ (cs ++ (after ++ [')']))) ++ rest =
        '(' :: (before ++ (cs ++ (after ++ ')' :: rest))) := by simp
    have hComma : symbol ',' (after ++ ')' :: rest) = none :=
      symbol_append_of_ne hAfter (by decide) (by decide) rest
    rw [hText, enclosed, symbol_append _ hBlanks (by decide)]
    simp only [Option.bind_eq_bind, Option.bind_some]
    rw [sequence_of_listed hFinds hListed hBefore (follows_append hAfter (.inr rfl) rest) hComma]
    simp [symbol_append after hAfter (c := ')') (by decide)]

end Reader

/-- A list that a reader finds is the only one that the text is related to. -/
theorem Listed.unique {α : Type} {r : Reader α} {item : List Char → α → Prop} (hFinds : Finds r item)
    {cs : List Char} {xs ys : List α} (hxs : Listed item cs xs) (hys : Listed item cs ys) : xs = ys := by
  have hEnd : Follows [] := fun _ hc => by cases hc
  have hx : Reader.sequence r ([] ++ (cs ++ [])) = some (xs, []) :=
    Reader.sequence_of_listed hFinds hxs rfl hEnd rfl
  have hy : Reader.sequence r ([] ++ (cs ++ [])) = some (ys, []) :=
    Reader.sequence_of_listed hFinds hys rfl hEnd rfl
  rw [hx] at hy
  cases hy
  rfl

theorem Listed.map {α β : Type} {item : List Char → α → Prop} {item' : List Char → β → Prop}
    {f : α → β} (hItem : ∀ {cs x}, item cs x → item' cs (f x)) {cs : List Char} {xs : List α}
    (h : Listed item cs xs) : Listed item' cs (xs.map f) := by
  induction h with
  | one hx => exact .one (hItem hx)
  | cons hx hBefore hAfter _ ih => exact .cons (hItem hx) hBefore hAfter ih

theorem listed_join {α : Type} {item : List Char → α → Prop} {write : α → String} {separator : String}
    {gap : List Char} (hSeparator : separator.toList = ',' :: gap) (hGap : gap.all isSpace = true)
    {xs : List α} (hne : xs ≠ []) (hItem : ∀ x ∈ xs, item (write x).toList x) :
    Listed item (Text.join separator (xs.map write)).toList xs := by
  induction xs with
  | nil => exact absurd rfl hne
  | cons x xs ih =>
    have hx := hItem x List.mem_cons_self
    cases xs with
    | nil => exact .one hx
    | cons y ys =>
      have hTail := ih (by simp) fun z hz => hItem z (List.mem_cons_of_mem _ hz)
      have hJoin : (Text.join separator ((x :: y :: ys).map write)).toList =
          (write x).toList ++
            ([] ++ ',' :: (gap ++ (Text.join separator ((y :: ys).map write)).toList)) := by
        simp [Text.join_cons_cons, hSeparator]
      rw [hJoin]
      exact .cons hx rfl hGap hTail

theorem isLiteral_quoteLiteral (s : String) : IsLiteral (quoteLiteral s).toList s := by
  refine ⟨(escape s).toList, ?_, by simp [quoteLiteral]⟩
  have hDouble : "\'\'".toList = ['\'', '\''] := rfl
  rw [escape, Text.substitute, String.toList_ofList, hDouble]
  induction s.toList with
  | nil => exact .nil
  | cons c cs ih =>
    by_cases hc : c = '\''
    · subst hc
      exact .quote ih
    · rw [List.flatMap_cons, if_neg hc]
      exact .plain hc ih

theorem enclosed_tuple {item : List Char → α → Prop} {write : α → String} {xs : List α} (hne : xs ≠ [])
    (hItem : ∀ x ∈ xs, item (write x).toList x) :
    Enclosed item (tuple (xs.map write)).toList xs := by
  have hText : (tuple (xs.map write)).toList =
      '(' :: ([] ++ ((Text.join ", " (xs.map write)).toList ++ ([] ++ [')']))) := by
    simp [tuple]
  have hSeparator : ", ".toList = ',' :: [' '] := rfl
  rw [hText]
  exact .intro rfl rfl (listed_join hSeparator (by decide) hne hItem)

/-- Lists of items in parentheses, with commas between them. -/
abbrev IsTuples {α : Type} (item : List Char → α → Prop) : List Char → List (List α) → Prop :=
  Listed (Enclosed item)

theorem isTuples_join {rows : List (List String)} (hne : rows ≠ []) (hRows : ∀ row ∈ rows, row ≠ []) :
    IsTuples IsLiteral (Text.join ",\n" (rows.map fun row => tuple (row.map quoteLiteral))).toList
      rows := by
  have hSeparator : ",\n".toList = ',' :: ['\n'] := rfl
  refine listed_join hSeparator (by decide) hne fun row hRow => ?_
  exact enclosed_tuple (hRows row hRow) fun s _ => isLiteral_quoteLiteral s

/-- The texts of a tuple are those of the cells that a row has in the columns, column by column. -/
def Row.Shows (columns : List String) (row : Row) (texts : List String) : Prop :=
  List.Forall₂ (fun column text => ∃ cell, row.cell? column = some cell ∧ text = cell.display)
    columns texts

theorem Row.shows_displays {columns : List String} {row : Row} (h : row.Covers columns) :
    row.Shows columns (row.displays columns) := by
  induction columns with
  | nil => exact .nil
  | cons c cs ih =>
    obtain ⟨cell, hCell⟩ := Option.isSome_iff_exists.mp (h c List.mem_cons_self)
    have hTail := ih fun d hd => h d (List.mem_cons_of_mem _ hd)
    have hDisplays : row.displays (c :: cs) = cell.display :: row.displays cs := by
      simp [displays, hCell]
    rw [hDisplays]
    exact .cons ⟨cell, hCell, rfl⟩ hTail

/-- Behind its header an INSERT statement has the cells of the rows in the given columns, and it cannot
be taken for anything else. -/
theorem insertRows_decodes (table : String) {columns : List String} {rows : List Row}
    (hColumns : columns ≠ []) (hRows : rows ≠ []) (hCovers : ∀ row ∈ rows, row.Covers columns) :
    ∃ body tuples,
      insertRows table columns rows =
        .ok (some ("INSERT INTO " ++ quoteName table ++ " (" ++
          Text.join ", " (columns.map fun c => quoteName c) ++ ") VALUES\n" ++ body)) ∧
      IsTuples IsLiteral body.toList tuples ∧
      (∀ others, IsTuples IsLiteral body.toList others → others = tuples) ∧
      List.Forall₂ (Row.Shows columns) rows tuples := by
  have hDisplays : rows.map (Row.displays columns) ≠ [] := by simpa using hRows
  have hWidths : ∀ texts ∈ rows.map (Row.displays columns), texts ≠ [] := by
    intro texts hTexts
    obtain ⟨row, hRow, rfl⟩ := List.mem_map.mp hTexts
    have hLength := Row.length_displays (hCovers row hRow)
    rwa [← List.length_pos_iff, hLength, List.length_pos_iff]
  have hTuples := isTuples_join hDisplays hWidths
  refine ⟨_, _, ?_, hTuples, ?_, ?_⟩
  · rw [insertRows_of_covers table hCovers, insertText?, if_neg (by simpa using hRows)]
    rfl
  · intro others hOthers
    exact Listed.unique (Reader.finds_enclosed Reader.finds_literal) hOthers hTuples
  · rw [List.forall₂_map_right_iff, List.forall₂_same]
    exact fun row hRow => Row.shows_displays (hCovers row hRow)

/-- A text that looks like the end of its tuple and the start of another, and cells of other kinds. -/
def imitations : List Row :=
  [[("a", .text "'), ('"), ("x", .text "no column"), ("b", .null)],
    [("b", .boolean true), ("a", .identifier (.ofNat 1))], [("a", .text "'\n,"), ("b", .integer (-2))]]

theorem insertRows_decodes_imitations :
    ∃ body, insertRows "t" ["a", "b"] imitations =
        .ok (some ("INSERT INTO t (a, b) VALUES\n" ++ body)) ∧
      ∀ others, IsTuples IsLiteral body.toList others → others =
        [["'), ('", ""], ["00000000-0000-0000-0000-000000000001", "True"], ["'\n,", "-2"]] := by
  have hCovers : ∀ row ∈ imitations, row.Covers ["a", "b"] := by
    simp [imitations, Row.Covers, Row.cell?]
  have hColumns : ["a", "b"] ≠ [] := by decide
  obtain ⟨body, tuples, hInsert, -, hUnique, hShows⟩ :=
    insertRows_decodes "t" hColumns (by simp [imitations]) hCovers
  refine ⟨body, hInsert, fun others hOthers => ?_⟩
  rw [hUnique others hOthers]
  have hText : (Identifier.ofNat 1).text = "00000000-0000-0000-0000-000000000001" := by decide +kernel
  have hMinus : Int.repr (-2) = "-2" := by decide
  simpa [imitations, Row.Shows, Row.cell?, List.forall₂_cons_left_iff, List.lookup_cons, Cell.display,
    hText, hMinus] using hShows

end SeedScript.Sql
