import SeedScript.Proofs.Identifier
import SeedScript.Proofs.Sql.Reading

/-!
# INSERT statements and the rows in them

The INSERT statement of rows that have all their columns is a header and one tuple of literals for
each row. It is a whole statement whatever texts the rows hold, and reading it gives the rows back.
-/

namespace SeedScript.Sql

theorem escape_of_not_mem {s : String} (h : '\'' ∉ s.toList) : escape s = s := by
  have hStay : ∀ cs : List Char, '\'' ∉ cs →
      (cs.flatMap fun c => if c = '\'' then "\'\'".toList else [c]) = cs := by
    intro cs hcs
    induction cs with
    | nil => rfl
    | cons c cs ih =>
      rw [List.mem_cons, not_or] at hcs
      rw [List.flatMap_cons, if_neg (Ne.symm hcs.1), ih hcs.2, List.singleton_append]
  rw [escape, Text.substitute, hStay _ h, String.ofList_toList]

theorem escape_identifier (i : Identifier) : escape i.text = i.text := by
  apply escape_of_not_mem
  intro hMem
  rcases Identifier.eq_or_hexDigit_of_mem_text hMem with h | ⟨d, hd, h⟩
  · cases h
  · have hAll : ∀ d < 16, '\'' ≠ Text.hexDigit d := by decide
    exact hAll d hd h

/-- An identifier is not escaped, and its literal is the one that the escaper would give. -/
theorem Cell.literal_eq (c : Cell) : c.literal = quoteLiteral c.display := by
  cases c with
  | identifier i => rw [literal, display, quoteLiteral, escape_identifier]
  | _ => rfl

namespace Row

/-- The texts of the given cells, in order. -/
def displays (columns : List String) (row : Row) : List String :=
  columns.filterMap fun c => (row.cell? c).map Cell.display

def Covers (columns : List String) (row : Row) : Prop :=
  ∀ c ∈ columns, (row.cell? c).isSome = true

theorem length_displays {columns : List String} {row : Row} (h : row.Covers columns) :
    (row.displays columns).length = columns.length := by
  induction columns with
  | nil => rfl
  | cons c cs ih =>
    obtain ⟨cell, hCell⟩ := Option.isSome_iff_exists.mp (h c List.mem_cons_self)
    have hTail := ih fun d hd => h d (List.mem_cons_of_mem _ hd)
    simpa [displays, hCell] using hTail

theorem literals_of_covers {columns : List String} {row : Row} (h : row.Covers columns) :
    row.literals columns = .ok ((row.displays columns).map quoteLiteral) := by
  have hMissing : (columns.filter fun c => (row.cell? c).isNone) = [] := by
    rw [List.filter_eq_nil_iff]
    intro c hc
    simp [Option.isSome_iff_ne_none.mp (h c hc)]
  have hLiteral : Cell.literal = quoteLiteral ∘ Cell.display := funext Cell.literal_eq
  rw [literals, hMissing, displays, List.map_filterMap, hLiteral]
  simp

end Row

/-- The INSERT statement of rows of texts. There is none without rows. -/
def insertText? (table : String) (columns : List String) (rows : List (List String)) :
    Option String :=
  if rows.isEmpty then none
  else some <| insertHeader table columns ++
    Text.join ",\n" (rows.map fun row => tuple (row.map quoteLiteral))

theorem renderRows_of_covers {columns : List String} {rows : List Row}
    (h : ∀ row ∈ rows, row.Covers columns) :
    renderRows columns rows =
      .ok (rows.map fun row => (row.displays columns).map quoteLiteral) := by
  induction rows with
  | nil => rfl
  | cons row rows ih =>
    rw [renderRows, Row.literals_of_covers (h row List.mem_cons_self),
      ih fun r hr => h r (List.mem_cons_of_mem _ hr)]
    rfl

theorem tuplesFrom_of_length {width : Nat} {rows : List (List String)}
    (h : ∀ row ∈ rows, row.length = width) (index : Nat) :
    tuplesFrom width index rows = .ok (rows.map tuple) := by
  induction rows generalizing index with
  | nil => rfl
  | cons row rows ih =>
    rw [tuplesFrom, if_pos (h row List.mem_cons_self),
      ih (fun r hr => h r (List.mem_cons_of_mem _ hr)) (index + 1)]
    rfl

theorem insertRows_of_covers (table : String) {columns : List String} {rows : List Row}
    (h : ∀ row ∈ rows, row.Covers columns) :
    insertRows table columns rows =
      .ok (insertText? table columns (rows.map (Row.displays columns))) := by
  cases rows with
  | nil => rfl
  | cons row rows =>
    have hWidth : ∀ literals ∈ (row :: rows).map fun r => (r.displays columns).map quoteLiteral,
        literals.length = columns.length := by
      intro literals hLiterals
      obtain ⟨r, hr, rfl⟩ := List.mem_map.mp hLiterals
      rw [List.length_map, Row.length_displays (h r hr)]
    rw [insertRows, renderRows_of_covers h]
    simp only [List.isEmpty_cons, Bool.false_eq_true, if_false]
    rw [valuesInsert, tuplesFrom_of_length hWidth]
    simp [insertText?, Except.map, Function.comp_def]

namespace Reader

theorem reads_tuple {row : List String} (hne : row ≠ []) :
    Reads (enclosed literal) (tuple (row.map quoteLiteral)) row :=
  reads_enclosed hne fun s _ => reads_quoteLiteral s

end Reader

namespace Reader

theorem reads_names {columns : List String} (hne : columns ≠ [])
    (hColumns : ∀ c ∈ columns, c.toList.getLast? ≠ some '\n') :
    Reads (enclosed name) ("(" ++ Text.join ", " (columns.map fun c => quoteName c) ++ ")") columns :=
  reads_enclosed hne fun c hc => reads_quoteName (hColumns c hc)

theorem sequence_tuples {rows : List (List String)} (hne : rows ≠ [])
    (hRows : ∀ row ∈ rows, row ≠ []) :
    sequence (enclosed literal)
      ('\n' :: (Text.join ",\n" (rows.map fun row => tuple (row.map quoteLiteral))).toList) =
        some (rows, []) := by
  have hLength := length_le_length_join (fun row => tuple (row.map quoteLiteral)) ",\n" (by decide)
    rows
  have hSeparator : ",\n".toList = ',' :: ['\n'] := rfl
  have hBlanks : ['\n'].all isSpace = true := rfl
  have h := upTo_join hSeparator hBlanks hne (fun row hr => reads_tuple (hRows row hr))
    (hLength.trans (Nat.le_succ _)) hBlanks endsToken_nil rfl
  rw [List.append_nil] at h
  exact h

end Reader

open Reader in
/-- The rows are read back from their INSERT statement. -/
theorem insertion?_insertText {table : String} {columns : List String} {rows : List (List String)}
    {text : String} (h : insertText? table columns rows = some text)
    (hTable : table.toList.getLast? ≠ some '\n') (hne : columns ≠ [])
    (hColumns : ∀ c ∈ columns, c.toList.getLast? ≠ some '\n') (hRows : ∀ row ∈ rows, row ≠ []) :
    insertion? text = some ⟨table, columns, rows⟩ := by
  rw [insertText?] at h
  split at h
  · cases h
  · next hEmpty =>
    cases h
    let names := "(" ++ Text.join ", " (columns.map fun c => quoteName c) ++ ")"
    let tuples := Text.join ",\n" (rows.map fun row => tuple (row.map quoteLiteral))
    have hText : (insertHeader table columns ++ tuples).toList =
        "INSERT".toList ++ (" INTO".toList ++ (' ' :: ((quoteName table).toList ++ (' ' ::
          (names.toList ++ (' ' :: ("VALUES".toList ++ ('\n' :: tuples.toList)))))))) := by
      simp [insertHeader, names]
    have hInsert : ∀ cs, keyword "INSERT" ("INSERT".toList ++ (" INTO".toList ++ cs)) =
        some (" INTO".toList ++ cs) := fun _ => rfl
    have hInto : ∀ cs, keyword "INTO" (" INTO".toList ++ (' ' :: cs)) = some (' ' :: cs) :=
      fun _ => rfl
    have hName := fun rest => reads_quoteName hTable [' '] (' ' :: rest) (by decide)
      (endsToken_cons (by decide) rest)
    have hNames := fun rest => reads_names hne hColumns [' '] (' ' :: rest) (by decide)
      (endsToken_cons (by decide) rest)
    have hValues : ∀ cs, keyword "VALUES" (' ' :: ("VALUES".toList ++ ('\n' :: cs))) =
        some ('\n' :: cs) := fun _ => rfl
    simp only [List.singleton_append] at hName hNames
    simp only [insertion?, hText, hInsert, hInto, hName, hNames, hValues, names, tuples,
      sequence_tuples (by simpa using hEmpty) hRows, Option.bind_eq_bind, Option.bind_some]
    rfl

theorem insertText?_eq_none_iff {table : String} {columns : List String}
    {rows : List (List String)} : insertText? table columns rows = none ↔ rows = [] := by
  simp [insertText?]

theorem isWhole_insertText {table : String} {columns : List String} {rows : List (List String)}
    {text : String} (h : insertText? table columns rows = some text) : IsWhole text.toList := by
  rw [insertText?] at h
  split at h
  · cases h
  · cases h
    rw [String.toList_append]
    refine .append (advance_insertHeader table columns)
      (isWhole_join _ (by decide) (by decide) fun x hx => ?_)
    obtain ⟨row, _, rfl⟩ := List.mem_map.mp hx
    refine isWhole_tuple fun l hl => ?_
    obtain ⟨s, _, rfl⟩ := List.mem_map.mp hl
    exact isWhole_quoteLiteral s

theorem strip_insertText {table : String} {columns : List String} {rows : List (List String)}
    {text : String} (h : insertText? table columns rows = some text) : Text.strip text = text := by
  rw [insertText?] at h
  split at h
  · cases h
  · next hEmpty =>
    cases h
    have hne : rows ≠ [] := by simpa using hEmpty
    obtain ⟨row, hRow⟩ : ∃ row, rows.getLast? = some row :=
      ⟨_, List.getLast?_eq_some_getLast hne⟩
    have hLastTuple : (rows.map fun row => tuple (row.map quoteLiteral)).getLast? =
        some (tuple (row.map quoteLiteral)) := by
      rw [List.getLast?_map, hRow]
      rfl
    have hHead : (insertHeader table columns).toList.head? = some 'I' := by
      simp [insertHeader]
    have hTuple : (tuple (row.map quoteLiteral)).toList.getLast? = some ')' :=
      Text.getLast?_append_of_eq _ rfl
    exact Text.strip_eq_self (Text.head?_append_of_eq hHead _) (by decide)
      (Text.getLast?_append_of_eq _ (Text.getLast?_join _ hLastTuple hTuple)) (by decide)

theorem isInsertion_insertText {table : String} {columns : List String} {rows : List (List String)}
    {text : String} (h : insertText? table columns rows = some text) : isInsertion text = true := by
  rw [insertText?] at h
  split at h
  · cases h
  · cases h
    have hText : ∀ rest, (Reader.keyword "INSERT" ("INSERT".toList ++ (' ' :: rest))).isSome = true :=
      fun _ => rfl
    simpa [isInsertion, insertHeader] using hText _

end SeedScript.Sql
