/-!
# Tables

What a seeded table looks like: its columns, the columns that an INSERT fills, and the trigger
that stamps a time on every update.
-/

namespace SeedScript.Schema

inductive ColumnType where
  | uuid
  | string
  | text
  | timestamptz
deriving DecidableEq, Repr

namespace ColumnType

def word : ColumnType → String
  | uuid => "uuid"
  | string => "string"
  | text => "text"
  | timestamptz => "timestamptz"

def ofWord? : String → Option ColumnType
  | "uuid" => some uuid
  | "string" => some string
  | "text" => some text
  | "timestamptz" => some timestamptz
  | _ => none

theorem ofWord?_word (t : ColumnType) : ofWord? t.word = some t := by cases t <;> rfl

end ColumnType

structure ForeignKey where
  table : String
  column : String
  onUpdate : Option String := some "CASCADE"
  onDelete : Option String := some "CASCADE"
deriving DecidableEq, Repr

structure Column where
  name : String
  type : ColumnType
  nullable : Bool := true
  maxLength : Option Int := none
  default : Option String := none
  isPrimaryKey : Bool := false
  references : Option ForeignKey := none
  description : String := ""
deriving DecidableEq, Repr

/-- A trigger that sets a column to the present time before each update. -/
structure UpdateTrigger where
  function : String
  name : String
  column : String := "updated_at"
deriving DecidableEq, Repr

/-- A table. An INSERT has the `insertColumns` in this order; the other columns are filled by
their defaults. -/
structure Table where
  name : String
  columns : List Column := []
  insertColumns : List String := []
  updateTrigger : Option UpdateTrigger := none
deriving DecidableEq, Repr

namespace Table

def columnNames (t : Table) : List String :=
  t.columns.map Column.name

def undefinedColumns (t : Table) : List String :=
  t.insertColumns.filter fun c => !t.columnNames.contains c

end Table
end SeedScript.Schema
