import SeedScript.Proofs.Sql.Insertion
import SeedScript.Schema.Seeded

/-!
# Whole definitions of tables

The statements that define a table are whole, whatever its names are, when the SQL fragments of the
table open nothing and end nothing and the name of the column that its trigger stamps does not end the
body of the function. None of them starts as INSERT statements do. There is no white space around them
when the name of the table does not end in a line feed.
-/

namespace SeedScript.Schema

open Sql

def OptionalFragment (f : Option String) : Prop :=
  ∀ s ∈ f, IsFragment s

instance (f : Option String) : Decidable (OptionalFragment f) :=
  inferInstanceAs (Decidable (∀ s ∈ f, IsFragment s))

structure ForeignKey.IsPlain (k : ForeignKey) : Prop where
  onUpdate : OptionalFragment k.onUpdate
  onDelete : OptionalFragment k.onDelete

instance (k : ForeignKey) : Decidable k.IsPlain :=
  decidable_of_iff (OptionalFragment k.onUpdate ∧ OptionalFragment k.onDelete)
    ⟨fun h => ⟨h.1, h.2⟩, fun h => ⟨h.onUpdate, h.onDelete⟩⟩

structure Column.IsPlain (c : Column) : Prop where
  default : OptionalFragment c.default
  references : ∀ k ∈ c.references, k.IsPlain

instance (c : Column) : Decidable c.IsPlain :=
  decidable_of_iff (OptionalFragment c.default ∧ ∀ k ∈ c.references, k.IsPlain)
    ⟨fun h => ⟨h.1, h.2⟩, fun h => ⟨h.default, h.references⟩⟩

structure UpdateTrigger.IsPlain (u : UpdateTrigger) : Prop where
  function : IsFragment u.function
  name : IsFragment u.name
  column : '$' ∉ u.column.toList

instance (u : UpdateTrigger) : Decidable u.IsPlain :=
  decidable_of_iff (IsFragment u.function ∧ IsFragment u.name ∧ '$' ∉ u.column.toList)
    ⟨fun h => ⟨h.1, h.2.1, h.2.2⟩, fun h => ⟨h.function, h.name, h.column⟩⟩

/-- The fragments of a table open nothing and end nothing. Its names may be any texts, apart from the
name that stands in the body of the trigger. -/
structure Table.IsPlain (t : Table) : Prop where
  columns : ∀ c ∈ t.columns, c.IsPlain
  updateTrigger : ∀ u ∈ t.updateTrigger, u.IsPlain

/-- The texts of a trigger that are written as they are open nothing and end nothing. -/
structure UpdateTrigger.HasFragments (u : UpdateTrigger) : Prop where
  function : IsFragment u.function
  name : IsFragment u.name

instance (u : UpdateTrigger) : Decidable u.HasFragments :=
  decidable_of_iff (IsFragment u.function ∧ IsFragment u.name)
    ⟨fun h => ⟨h.1, h.2⟩, fun h => ⟨h.function, h.name⟩⟩

/-- The texts of a table that are written as they are open nothing and end nothing. The texts that are
quoted, its names, may be any. -/
structure Table.HasFragments (t : Table) : Prop where
  columns : ∀ c ∈ t.columns, c.IsPlain
  updateTrigger : ∀ u ∈ t.updateTrigger, u.HasFragments

instance (t : Table) : Decidable t.HasFragments :=
  decidable_of_iff ((∀ c ∈ t.columns, c.IsPlain) ∧ ∀ u ∈ t.updateTrigger, u.HasFragments)
    ⟨fun h => ⟨h.1, h.2⟩, fun h => ⟨h.columns, h.updateTrigger⟩⟩

theorem Table.IsPlain.hasFragments {t : Table} (h : t.IsPlain) : t.HasFragments :=
  ⟨h.columns, fun u hu => ⟨(h.updateTrigger u hu).function, (h.updateTrigger u hu).name⟩⟩

theorem isWhole_of_mem_optionalClause {keyword : String} (hKeyword : IsFragment keyword)
    {f : Option String} (hf : OptionalFragment f) {x : String} (hx : x ∈ optionalClause keyword f) :
    IsWhole x.toList := by
  cases f with
  | none => simp [optionalClause] at hx
  | some s =>
    rw [optionalClause] at hx
    split at hx
    · simp at hx
    · rw [List.mem_singleton.mp hx]
      exact (hKeyword.append (hf s rfl)).isClosed.isWhole

theorem ForeignKey.isWhole_of_mem_clauses {k : ForeignKey} (h : k.IsPlain) {x : String}
    (hx : x ∈ k.clauses) : IsWhole x.toList := by
  rw [ForeignKey.clauses, List.mem_cons, List.mem_append] at hx
  rcases hx with rfl | hx | hx
  · have hStart : IsClosed "REFERENCES " := rfl
    have hTable : IsClosed ("REFERENCES " ++ quoteName k.table ++ "(") :=
      (hStart.append_whole (isWhole_quoteName k.table)).append_fragment (by decide) (by decide)
    exact ((hTable.append_whole (isWhole_quoteName k.column)).append_fragment (by decide)
      (by decide)).isWhole
  · exact isWhole_of_mem_optionalClause (by decide) h.onUpdate hx
  · exact isWhole_of_mem_optionalClause (by decide) h.onDelete hx

namespace Column

theorem isFragment_sqlType (c : Column) : IsFragment c.sqlType := by
  have hVarchar : IsFragment "VARCHAR(" := by decide
  unfold sqlType
  split
  · decide
  · split
    · decide
    · next n _ =>
      split
      · decide
      · exact (hVarchar.append (isFragment_int n)).append (by decide)
  · decide
  · decide

theorem isFragment_of_mem_constraint {c : Column} {x : String} (hx : x ∈ c.constraint) :
    IsFragment x := by
  rw [constraint] at hx
  split at hx
  · rw [List.mem_singleton.mp hx]
    decide
  · split at hx
    · simp at hx
    · rw [List.mem_singleton.mp hx]
      decide

theorem isWhole_of_mem_clauses {c : Column} (h : c.IsPlain) {x : String} (hx : x ∈ c.clauses) :
    IsWhole x.toList := by
  simp only [clauses, List.mem_append, List.mem_cons, List.not_mem_nil, or_false] at hx
  rcases hx with (((rfl | rfl) | hx) | hx) | hx
  · exact isWhole_quoteName c.name
  · exact c.isFragment_sqlType.isClosed.isWhole
  · exact (isFragment_of_mem_constraint hx).isClosed.isWhole
  · exact isWhole_of_mem_optionalClause (by decide) h.default hx
  · cases hReferences : c.references with
    | none => simp [hReferences] at hx
    | some k =>
      rw [hReferences] at hx
      exact ForeignKey.isWhole_of_mem_clauses (h.references k hReferences) hx

theorem isWhole_definition {c : Column} (h : c.IsPlain) : IsWhole c.definition.toList :=
  isWhole_join " " (by decide) (by decide) fun _ => isWhole_of_mem_clauses h

end Column

theorem isWhole_dropStatement (table : String) : IsWhole (dropStatement table).toList := by
  have hStart : IsClosed "DROP TABLE IF EXISTS " := rfl
  exact ((hStart.append_whole (isWhole_quoteName table)).append_fragment (by decide)
    (by decide)).isWhole

namespace UpdateTrigger

/-- The text of the function behind the name of its column. -/
def functionEnd : String :=
  " = NOW();\n    RETURN NEW;\nEND;\n$$ LANGUAGE plpgsql"

theorem advance_functionStatement {u : UpdateTrigger} (h : IsFragment u.function) :
    Mode.plain.advance u.functionStatement.toList =
      Mode.body.advance ((quoteName u.column).toList ++ functionEnd.toList) := by
  have hStart : IsFragment "CREATE OR REPLACE FUNCTION " := by decide
  have hHead : IsClosed ("CREATE OR REPLACE FUNCTION " ++ u.function ++ "()\nRETURNS TRIGGER AS ") :=
    ((hStart.append h).append (by decide)).isClosed
  have hOpen : Mode.plain.advance "$$\nBEGIN\n    NEW.".toList = some .body := by decide
  have hText : u.functionStatement.toList =
      ("CREATE OR REPLACE FUNCTION " ++ u.function ++ "()\nRETURNS TRIGGER AS ").toList ++
        ("$$\nBEGIN\n    NEW.".toList ++ ((quoteName u.column).toList ++ functionEnd.toList)) := by
    simp [functionStatement, Text.join, functionEnd]
  rw [hText, Mode.advance_append_of_eq hHead, Mode.advance_append_of_eq hOpen]

/-- Outside of a body the text behind the name goes on to a semicolon, and inside of a literal or of another
name it does not end. -/
theorem mode_of_functionEnd {m m' : Mode} (h : m.advance functionEnd.toList = some m')
    (hOutside : m'.isOutside = true) : m = .body ∨ m = .bodyDollar := by
  have hAll : ∀ m : Mode, m ≠ .body → m ≠ .bodyDollar →
      (m.advance functionEnd.toList).any Mode.isOutside = false := by
    intro m hBody hDollar
    cases m <;> first | rfl | contradiction
  by_contra hNot
  rw [not_or] at hNot
  have hNone := hAll m hNot.1 hNot.2
  rw [h, Option.any_some, hOutside] at hNone
  cases hNone

theorem isWhole_functionStatement_iff {u : UpdateTrigger} (h : IsFragment u.function) :
    IsWhole u.functionStatement.toList ↔ KeepsBody u.column := by
  rw [IsWhole, advance_functionStatement h]
  constructor
  · rintro ⟨m', hAdvance, hOutside⟩
    by_cases hBare : isBareName u.column = true
    · exact keepsBody_of_isBareName hBare
    · rw [Mode.advance_append] at hAdvance
      obtain ⟨m, hName, hEnd⟩ := Option.bind_eq_some_iff.mp hAdvance
      rcases mode_of_functionEnd hEnd hOutside with rfl | rfl
      · exact hName
      · rw [quoteName, if_neg (by simpa using hBare), delimitName, String.toList_append] at hName
        exact absurd rfl (Mode.ne_bodyDollar_of_advance hName)
  · intro hKeeps
    rw [Mode.advance_append_of_eq hKeeps]
    exact ⟨.plain, by decide, rfl⟩

theorem isWhole_dropStatement {u : UpdateTrigger} (hName : IsFragment u.name) (table : String) :
    IsWhole (u.dropStatement table).toList := by
  have hStart : IsFragment "DROP TRIGGER IF EXISTS " := by decide
  exact ((hStart.append hName).append (by decide)).isClosed.append_whole (isWhole_quoteName table)

theorem isWhole_createStatement {u : UpdateTrigger} (hName : IsFragment u.name)
    (hFunction : IsFragment u.function) (table : String) :
    IsWhole (u.createStatement table).toList := by
  have hTrigger : IsFragment "CREATE TRIGGER " := by decide
  have hUpdate : IsClosed "    BEFORE UPDATE ON " := rfl
  have hExecute : IsFragment "    EXECUTE FUNCTION " := by decide
  have hFunction : IsFragment ("    EXECUTE FUNCTION " ++ u.function ++ "()") :=
    (hExecute.append hFunction).append (by decide)
  apply isWhole_join "\n" (by decide) (by decide)
  simp only [List.forall_mem_cons, List.not_mem_nil, false_implies, implies_true, and_true]
  exact ⟨(hTrigger.append hName).isClosed.isWhole,
    hUpdate.append_whole (isWhole_quoteName table), ⟨_, rfl, rfl⟩, hFunction.isClosed.isWhole⟩

end UpdateTrigger

namespace Table

theorem isWhole_createStatement {t : Table} (hPlain : ∀ c ∈ t.columns, c.IsPlain) :
    IsWhole t.createStatement.toList := by
  have hStart : IsClosed "CREATE TABLE IF NOT EXISTS " := rfl
  have hIndent : IsClosed "  " := rfl
  have hColumns : ∀ x ∈ t.columns.map fun c => "  " ++ c.definition, IsWhole x.toList := by
    intro x hx
    obtain ⟨c, hc, rfl⟩ := List.mem_map.mp hx
    exact hIndent.append_whole (Column.isWhole_definition (hPlain c hc))
  apply isWhole_join "\n" (by decide) (by decide)
  simp only [List.forall_mem_cons, List.not_mem_nil, false_implies, implies_true, and_true]
  exact ⟨((hStart.append_whole (isWhole_quoteName t.name)).append_fragment (by decide)
    (by decide)).isWhole, isWhole_join ",\n" (by decide) (by decide) hColumns, ⟨_, rfl, rfl⟩⟩

theorem mem_statements_iff {t : Table} {fullReseed : Bool} {x : String} :
    x ∈ t.statements fullReseed ↔ fullReseed = true ∧ x = dropStatement t.name ∨
      x = t.createStatement ∨ ∃ u, t.updateTrigger = some u ∧ (x = u.functionStatement ∨
        x = u.dropStatement t.name ∨ x = u.createStatement t.name) := by
  cases fullReseed <;> cases hTrigger : t.updateTrigger <;>
    simp [statements, triggerStatements, hTrigger]

/-- Of the statements only the one with a body depends on a name, that of the stamped column. -/
theorem forall_isWhole_statements_iff {t : Table} (h : t.HasFragments) {fullReseed : Bool} :
    (∀ x ∈ t.statements fullReseed, IsWhole x.toList) ↔ ∀ u ∈ t.updateTrigger, KeepsBody u.column := by
  constructor
  · intro hWhole u hu
    exact (UpdateTrigger.isWhole_functionStatement_iff (h.updateTrigger u hu).function).mp
      (hWhole _ (mem_statements_iff.mpr (.inr (.inr ⟨u, hu, .inl rfl⟩))))
  · intro hKeeps x hx
    rcases mem_statements_iff.mp hx with ⟨-, rfl⟩ | rfl | ⟨u, hu, hx⟩
    · exact isWhole_dropStatement t.name
    · exact isWhole_createStatement h.columns
    · have hTrigger := h.updateTrigger u hu
      rcases hx with rfl | rfl | rfl
      · exact (UpdateTrigger.isWhole_functionStatement_iff hTrigger.function).mpr (hKeeps u hu)
      · exact UpdateTrigger.isWhole_dropStatement hTrigger.name t.name
      · exact UpdateTrigger.isWhole_createStatement hTrigger.name hTrigger.function t.name

theorem isWhole_of_mem_statements {t : Table} (h : t.IsPlain) {fullReseed : Bool} {x : String}
    (hx : x ∈ t.statements fullReseed) : IsWhole x.toList := by
  refine (forall_isWhole_statements_iff h.hasFragments).mpr (fun u hu => ?_) x hx
  exact keepsBody_of_not_infix fun hInfix =>
    (h.updateTrigger u hu).column (hInfix.subset List.mem_cons_self)

theorem head?_of_mem_statements {t : Table} {fullReseed : Bool} {x : String}
    (hx : x ∈ t.statements fullReseed) :
    x.toList.head? = some 'D' ∨ x.toList.head? = some 'C' := by
  rcases mem_statements_iff.mp hx with ⟨-, rfl⟩ | rfl | ⟨u, -, rfl | rfl | rfl⟩
  · exact .inl (Text.head?_append_of_eq (Text.head?_append_of_eq rfl _) _)
  · exact .inr (Text.head?_join (Text.head?_append_of_eq (Text.head?_append_of_eq rfl _) _))
  · exact .inr (Text.head?_join (Text.head?_append_of_eq (Text.head?_append_of_eq rfl _) _))
  · exact .inl (Text.head?_append_of_eq
      (Text.head?_append_of_eq (Text.head?_append_of_eq rfl _) _) _)
  · exact .inr (Text.head?_join (Text.head?_append_of_eq rfl _))

/-- What defines a table inserts nothing. -/
theorem isInsertion_of_mem_statements {t : Table} {fullReseed : Bool} {x : String}
    (hx : x ∈ t.statements fullReseed) : isInsertion x = false := by
  rcases head?_of_mem_statements hx with h | h
  · exact isInsertion_of_head? h (by decide) (by decide) (by decide)
  · exact isInsertion_of_head? h (by decide) (by decide) (by decide)

theorem strip_of_mem_statements {t : Table} (hName : t.name.toList.getLast? ≠ some '\n')
    {fullReseed : Bool} {x : String} (hx : x ∈ t.statements fullReseed) : Text.strip x = x := by
  have hLast : ∃ d, x.toList.getLast? = some d ∧ Text.isBlank d = false := by
    rcases mem_statements_iff.mp hx with ⟨-, rfl⟩ | rfl | ⟨u, -, rfl | rfl | rfl⟩
    · exact ⟨'E', Text.getLast?_append_of_eq _ rfl, by decide⟩
    · exact ⟨')', Text.getLast?_join ")" rfl rfl, by decide⟩
    · exact ⟨'l', Text.getLast?_join "$$ LANGUAGE plpgsql" rfl rfl, by decide⟩
    · obtain ⟨d, hQuoted, hd⟩ := exists_getLast?_quoteName hName
      exact ⟨d, Text.getLast?_append_of_eq _ hQuoted, hd⟩
    · exact ⟨')', Text.getLast?_join _ rfl (Text.getLast?_append_of_eq _ rfl), by decide⟩
  obtain ⟨d, hLast, hd⟩ := hLast
  rcases head?_of_mem_statements hx with h | h
  · exact Text.strip_eq_self h (by decide) hLast hd
  · exact Text.strip_eq_self h (by decide) hLast hd

end Table

theorem isPlain_countries : countries.IsPlain :=
  ⟨by decide, by decide⟩

theorem isPlain_banks : banks.IsPlain :=
  ⟨by decide, by decide⟩

end SeedScript.Schema
