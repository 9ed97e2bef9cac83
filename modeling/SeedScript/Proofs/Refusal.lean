import SeedScript.Proofs.Stages

/-!
# What compiling can be refused for

An INSERT statement is refused only for a row that lacks a column, and then the first such row decides. The
rows that are compiled have the columns of their table, the tables are registered, and each country has its
identifier. Main statement: compiling returns, or it fails as it is meant to: with an error about a record,
or because an identifier was issued before.
-/

namespace SeedScript

namespace Sql

namespace Row

/-- The columns that a row lacks, in the order of the columns. -/
def missing (columns : List String) (row : Row) : List String :=
  columns.filter fun c => (row.cell? c).isNone

theorem missing_eq_nil_iff {columns : List String} {row : Row} :
    row.missing columns = [] ↔ row.Covers columns := by
  simp [missing, Covers, List.filter_eq_nil_iff, Option.isSome_iff_ne_none]

theorem literals_of_not_covers {columns : List String} {row : Row} (h : ¬ row.Covers columns) :
    row.literals columns = .error (.missingColumns (row.missing columns)) := by
  have hMissing : row.missing columns ≠ [] := fun hNil => h (missing_eq_nil_iff.mp hNil)
  exact if_neg (by simpa [missing] using hMissing)

end Row

variable {columns : List String} {rows : List Row} {e : InsertError}

/-- The first row that lacks a column, behind rows that do not. -/
theorem exists_first_lacking (h : ¬ ∀ row ∈ rows, row.Covers columns) :
    ∃ before row behind, rows = before ++ row :: behind ∧
      (∀ r ∈ before, r.Covers columns) ∧ ¬ row.Covers columns := by
  induction rows with
  | nil => exact absurd (List.forall_mem_nil _) h
  | cons row rows ih =>
    by_cases hRow : row.Covers columns
    · have hRest : ¬ ∀ r ∈ rows, r.Covers columns := fun hAll =>
        h (List.forall_mem_cons.mpr ⟨hRow, hAll⟩)
      obtain ⟨before, lacking, behind, rfl, hBefore, hLacking⟩ := ih hRest
      exact ⟨row :: before, lacking, behind, rfl, List.forall_mem_cons.mpr ⟨hRow, hBefore⟩, hLacking⟩
    · exact ⟨[], row, rows, rfl, List.forall_mem_nil _, hRow⟩

theorem renderRows_of_lacking {before behind : List Row} {row : Row}
    (hBefore : ∀ r ∈ before, r.Covers columns) (hRow : ¬ row.Covers columns) :
    renderRows columns (before ++ row :: behind) = .error (.missingColumns (row.missing columns)) := by
  induction before with
  | nil => rw [List.nil_append, renderRows, Row.literals_of_not_covers hRow]
  | cons first before ih =>
    obtain ⟨hFirst, hBefore⟩ := List.forall_mem_cons.mp hBefore
    rw [List.cons_append, renderRows, Row.literals_of_covers hFirst, ih hBefore]
    rfl

theorem insertRows_of_lacking (table : String) {before behind : List Row} {row : Row}
    (hBefore : ∀ r ∈ before, r.Covers columns) (hRow : ¬ row.Covers columns) :
    insertRows table columns (before ++ row :: behind) =
      .error (.missingColumns (row.missing columns)) := by
  rw [insertRows, if_neg (by simp), renderRows_of_lacking hBefore hRow]

theorem insertRows_eq_none_iff {table : String} :
    insertRows table columns rows = .ok none ↔ rows = [] := by
  constructor
  · intro h
    by_cases hCovers : ∀ row ∈ rows, row.Covers columns
    · rw [insertRows_of_covers table hCovers, Except.ok.injEq, insertText?_eq_none_iff] at h
      exact List.map_eq_nil_iff.mp h
    · obtain ⟨before, row, behind, rfl, hBefore, hRow⟩ := exists_first_lacking hCovers
      cases h.symm.trans (insertRows_of_lacking table hBefore hRow)
  · rintro rfl
    rfl

/-- The rows of an INSERT are refused for the first of them that lacks a column, and for nothing else. -/
theorem insertRows_eq_error_iff {table : String} :
    insertRows table columns rows = .error e ↔ ∃ before row behind, rows = before ++ row :: behind ∧
      (∀ r ∈ before, r.Covers columns) ∧ ¬ row.Covers columns ∧
        e = .missingColumns (row.missing columns) := by
  constructor
  · intro h
    by_cases hCovers : ∀ row ∈ rows, row.Covers columns
    · cases h.symm.trans (insertRows_of_covers table hCovers)
    · obtain ⟨before, row, behind, rfl, hBefore, hRow⟩ := exists_first_lacking hCovers
      cases h.symm.trans (insertRows_of_lacking table hBefore hRow)
      exact ⟨before, row, behind, rfl, hBefore, hRow, rfl⟩
  · rintro ⟨before, row, behind, rfl, hBefore, hRow, rfl⟩
    exact insertRows_of_lacking table hBefore hRow

theorem exists_insertRows_error_iff {table : String} :
    (∃ e, insertRows table columns rows = .error e) ↔ ∃ row ∈ rows, ¬ row.Covers columns := by
  constructor
  · rintro ⟨e, h⟩
    obtain ⟨before, row, behind, rfl, -, hRow, -⟩ := insertRows_eq_error_iff.mp h
    exact ⟨row, by simp, hRow⟩
  · rintro ⟨row, hMem, hRow⟩
    obtain ⟨before, lacking, behind, rfl, hBefore, hLacking⟩ :=
      exists_first_lacking fun hAll => hRow (hAll row hMem)
    exact ⟨_, insertRows_of_lacking table hBefore hLacking⟩

end Sql

/-- The step returns, or it fails while it compiles: for a record, or for an identifier that was issued
before. -/
def RunStep.Compiles {α : Type} (x : RunStep α) : Prop :=
  ∀ p, (∃ a q, x p = (.ok a, q)) ∨ ∃ f q, x p = (.error (.failure f), q) ∧ f.stage = .compile ∧
    (f.problem.type = "DatasetError" ∨ f.problem.type = "SeedError")

theorem Problem.type_of_compile {problem : Problem} (h : problem.stage = .compile) :
    problem.type = "DatasetError" ∨ problem.type = "SeedError" := by
  cases problem <;> first | exact .inl rfl | exact .inr rfl | cases h

theorem RunStep.FailsWith.compiles {α : Type} {x : RunStep α}
    (h : RunStep.FailsWith x (Error.IsOf .compile)) : x.Compiles := by
  intro p
  rcases hRun : x p with ⟨e | a, q⟩
  · obtain ⟨f, rfl, hStage⟩ := h hRun
    exact .inr ⟨f, q, rfl, hStage, Problem.type_of_compile hStage⟩
  · exact .inl ⟨a, q, rfl⟩

/-- There is no INSERT statement exactly if there are no rows, and rows are refused exactly if one of them
lacks a column, with the columns that the first such row lacks: a list without rows or a row of another
width is never handed on. And countries, banks and both together compile, or fail while they compile; no
error of the registry, of the INSERT statement or of the resolver comes of it. -/
theorem compile_refusals :
    (∀ (table : String) (columns : List String) (rows : List Sql.Row),
      (Sql.insertRows table columns rows = .ok none ↔ rows = []) ∧
      ((∃ e, Sql.insertRows table columns rows = .error e) ↔ ∃ row ∈ rows, ¬ row.Covers columns) ∧
      ∀ e, Sql.insertRows table columns rows = .error e →
        (Error.insert e).type = "KeyError" ∧
        ∃ before row behind, rows = before ++ row :: behind ∧ (∀ r ∈ before, r.Covers columns) ∧
          ¬ row.Covers columns ∧ e = .missingColumns (row.missing columns)) ∧
    (∀ records fullReseed, (compileCountries records fullReseed).Compiles) ∧
    (∀ records resolver fullReseed, (compileBanks records resolver fullReseed).Compiles) ∧
    ∀ countries banks fullReseed, (compileSeed countries banks fullReseed).Compiles := by
  refine ⟨fun table columns rows => ⟨Sql.insertRows_eq_none_iff, Sql.exists_insertRows_error_iff, ?_⟩,
    ?_, ?_, ?_⟩
  · intro e h
    obtain ⟨before, row, behind, hRows, hBefore, hRow, rfl⟩ := Sql.insertRows_eq_error_iff.mp h
    exact ⟨rfl, before, row, behind, hRows, hBefore, hRow, rfl⟩
  · intro records fullReseed
    exact (failsWith_compileCountries records fullReseed).compiles
  · intro records resolver fullReseed
    exact (failsWith_compileBanks records resolver fullReseed).compiles
  · intro countries banks fullReseed
    exact (failsWith_compileSeed countries banks fullReseed).compiles

end SeedScript
