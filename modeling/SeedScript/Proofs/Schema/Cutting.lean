import SeedScript.Proofs.Schema.Calls
import SeedScript.Proofs.Schema.Whole
import SeedScript.Proofs.Sql.Cutting

/-!
# Cutting the definition of a table

Of the statements that define a table only the one with a body can fail to be whole: the semicolons of the
body are held together by pairs of dollar signs, and two dollar signs in the name of the stamped column end
it too early. Main statement: the definition of a registered table is cut into its statements exactly if
that name stays in the body, and it does when no two dollar signs in it follow each other.
-/

namespace SeedScript.Schema

open Sql

namespace Table

/-- The statements that define a table, as the set that a script is written of. -/
def definitionSet (t : Table) (fullReseed : Bool) : StatementSet :=
  { table := t.name, ddl := t.statements fullReseed }

theorem statements_definitionSet (t : Table) (fullReseed : Bool) :
    (t.definitionSet fullReseed).statements = t.statements fullReseed :=
  List.append_nil _

theorem isCut_definitionSet_iff {t : Table} (h : t.HasFragments) {fullReseed : Bool} :
    (t.definitionSet fullReseed).IsCut ↔ ∀ u ∈ t.updateTrigger, KeepsBody u.column := by
  rw [StatementSet.isCut_iff, statements_definitionSet, forall_isWhole_statements_iff h]

end Table

namespace Registry

/-- The script that defines a registered table is cut into exactly the statements of the definition if and
only if the quoted name of the stamped column leads from the body back into the body, whatever the other
names are. A name without two dollar signs in a row does, and a table without a trigger has none. -/
theorem tableStatements_cut {r r' : Registry} {t : Table} (hRegister : r.register t = .ok r')
    (hFragments : t.HasFragments) (fullReseed : Bool) :
    r'.tableStatements t.name fullReseed = .ok (t.definitionSet fullReseed).statements ∧
      ((t.definitionSet fullReseed).IsCut ↔ ∀ u ∈ t.updateTrigger, KeepsBody u.column) ∧
      ((∀ u ∈ t.updateTrigger, ¬ ['$', '$'] <:+: u.column.toList) →
        (t.definitionSet fullReseed).IsCut) := by
  refine ⟨?_, Table.isCut_definitionSet_iff hFragments, fun hApart => ?_⟩
  · rw [tableStatements, get_of_register hRegister, Table.statements_definitionSet]
    rfl
  · rw [Table.isCut_definitionSet_iff hFragments]
    exact fun u hu => keepsBody_of_not_infix (hApart u hu)

/-- A table whose names are full of quotes, semicolons and single dollar signs. -/
def hardTable : Table where
  name := "a\";\n"
  columns := [
    { name := "$$';--", type := .text, default := some "now()",
      references := some { table := "';", column := "$$" } }]
  insertColumns := ["$$';--"]
  updateTrigger := some { function := "f", name := "g h", column := "$\"$;'" }

theorem tableStatements_cut_hardTable : ∃ r', empty.register hardTable = .ok r' ∧
    r'.tableStatements "a\";\n" true = .ok (hardTable.definitionSet true).statements ∧
      (hardTable.definitionSet true).IsCut := by
  have hRegister : ∃ r', empty.register hardTable = .ok r' := ⟨_, rfl⟩
  obtain ⟨r', hRegister⟩ := hRegister
  obtain ⟨hStatements, -, hCut⟩ := tableStatements_cut hRegister (by decide) true
  exact ⟨r', hRegister, hStatements, hCut (by decide)⟩

/-- The column that this table stamps ends the body of its function. -/
def brokenTable : Table where
  name := "t"
  columns := [{ name := "a", type := .text }]
  insertColumns := ["a"]
  updateTrigger := some { function := "f", name := "g", column := "$$;DROP TABLE y;$$" }

theorem tableStatements_cut_brokenTable :
    (∃ r', empty.register brokenTable = .ok r') ∧ brokenTable.HasFragments ∧
      ¬ (brokenTable.definitionSet false).IsCut := by
  refine ⟨⟨_, rfl⟩, by decide, ?_⟩
  rw [Table.isCut_definitionSet_iff (by decide)]
  decide

end Registry
end SeedScript.Schema
