import SeedScript.Schema.Table
import SeedScript.Sql.Name

/-!
# Statements that define a table

The statements carry no semicolon at their end; a script adds it. Names are quoted where they
need it. Defaults, foreign key actions and the names of triggers and functions are SQL fragments
and go in as they are.
-/

namespace SeedScript.Schema

open Sql (quoteName)

/-- The SQL type of a column. A length limit of zero is no limit. -/
def Column.sqlType (c : Column) : String :=
  match c.type with
  | .uuid => "UUID"
  | .string =>
    match c.maxLength with
    | none => "VARCHAR"
    | some n => if n = 0 then "VARCHAR" else "VARCHAR(" ++ toString n ++ ")"
  | .text => "TEXT"
  | .timestamptz => "TIMESTAMPTZ"

/-- A clause of a keyword and a fragment; an absent or empty fragment gives no clause. -/
def optionalClause (keyword : String) : Option String → List String
  | none => []
  | some fragment => if fragment.isEmpty then [] else [keyword ++ fragment]

namespace ForeignKey

def clauses (k : ForeignKey) : List String :=
  ("REFERENCES " ++ quoteName k.table ++ "(" ++ quoteName k.column ++ ")") ::
    (optionalClause "ON UPDATE " k.onUpdate ++ optionalClause "ON DELETE " k.onDelete)

end ForeignKey

namespace Column

def constraint (c : Column) : List String :=
  if c.isPrimaryKey then ["PRIMARY KEY"]
  else if c.nullable then []
  else ["NOT NULL"]

def clauses (c : Column) : List String :=
  [quoteName c.name, c.sqlType] ++ c.constraint ++ optionalClause "DEFAULT " c.default ++
    (match c.references with
     | none => []
     | some k => k.clauses)

def definition (c : Column) : String :=
  Text.join " " c.clauses

end Column

def dropStatement (table : String) (cascade : Bool := true) : String :=
  "DROP TABLE IF EXISTS " ++ quoteName table ++ (if cascade then " CASCADE" else "")

namespace UpdateTrigger

def functionStatement (t : UpdateTrigger) : String :=
  Text.join "\n" [
    "CREATE OR REPLACE FUNCTION " ++ t.function ++ "()",
    "RETURNS TRIGGER AS $$",
    "BEGIN",
    "    NEW." ++ quoteName t.column ++ " = NOW();",
    "    RETURN NEW;",
    "END;",
    "$$ LANGUAGE plpgsql"]

def dropStatement (t : UpdateTrigger) (table : String) : String :=
  "DROP TRIGGER IF EXISTS " ++ t.name ++ " ON " ++ quoteName table

def createStatement (t : UpdateTrigger) (table : String) : String :=
  Text.join "\n" [
    "CREATE TRIGGER " ++ t.name,
    "    BEFORE UPDATE ON " ++ quoteName table,
    "    FOR EACH ROW",
    "    EXECUTE FUNCTION " ++ t.function ++ "()"]

end UpdateTrigger

namespace Table

def createStatement (t : Table) (ifNotExists : Bool := true) : String :=
  Text.join "\n" [
    "CREATE TABLE " ++ (if ifNotExists then "IF NOT EXISTS " else "") ++ quoteName t.name ++ " (",
    Text.join ",\n" (t.columns.map fun c => "  " ++ c.definition),
    ")"]

/-- The statements of the update trigger. A trigger cannot be created only where it is absent, so
one of the same name is dropped first. -/
def triggerStatements (t : Table) : List String :=
  match t.updateTrigger with
  | none => []
  | some u => [u.functionStatement, u.dropStatement t.name, u.createStatement t.name]

/-- Every statement that defines the table, in execution order. A full reseed drops it first. -/
def statements (t : Table) (fullReseed : Bool := false) : List String :=
  (if fullReseed then [dropStatement t.name] else []) ++ t.createStatement :: t.triggerStatements

end Table
end SeedScript.Schema
