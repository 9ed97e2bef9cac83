import SeedScript.Sql.Literal
import SeedScript.Sql.Name

/-!
# INSERT statements

One statement inserts all rows of a table: a header with the table and its columns, and one
parenthesised list of literals per row. Rows name their cells; the statement takes the cells of
the given columns, in their order, and leaves other cells out.
-/

namespace SeedScript.Sql

inductive InsertError where
  | noRows (table : String)
  | raggedRow (index width expected : Nat)
  | missingColumns (columns : List String)
deriving DecidableEq

namespace InsertError

def message : InsertError → String
  | noRows table => "Cannot build INSERT for " ++ table ++ " without rows"
  | raggedRow index width expected =>
    "Row " ++ toString index ++ " has " ++ toString width ++ " values, expected " ++ toString expected
  | missingColumns columns => "Row is missing columns: " ++ Text.quotedList columns

end InsertError

def insertHeader (table : String) (columns : List String) : String :=
  "INSERT INTO " ++ quoteName table ++ " (" ++ Text.join ", " (columns.map fun c => quoteName c) ++
    ") VALUES\n"

def tuple (literals : List String) : String :=
  "(" ++ Text.join ", " literals ++ ")"

/-- The tuples of the rows from position `index` on, if each row is `width` wide. -/
def tuplesFrom (width : Nat) : Nat → List (List String) → Except InsertError (List String)
  | _, [] => .ok []
  | index, row :: rows =>
    if row.length = width then (tuplesFrom width (index + 1) rows).map (tuple row :: ·)
    else .error (.raggedRow index row.length width)

def valuesInsert (table : String) (columns : List String) (rows : List (List String)) :
    Except InsertError String :=
  if rows.isEmpty then .error (.noRows table)
  else (tuplesFrom columns.length 0 rows).map fun tuples =>
    insertHeader table columns ++ Text.join ",\n" tuples

abbrev Row := List (String × Cell)

namespace Row

def cell? (row : Row) (column : String) : Option Cell :=
  row.lookup column

def literals (columns : List String) (row : Row) : Except InsertError (List String) :=
  let missing := columns.filter fun c => (row.cell? c).isNone
  if missing.isEmpty then .ok (columns.filterMap fun c => (row.cell? c).map Cell.literal)
  else .error (.missingColumns missing)

end Row

/-- The literals of each row, in order; the first row that lacks a column decides the error. -/
def renderRows (columns : List String) : List Row → Except InsertError (List (List String))
  | [] => .ok []
  | row :: rows =>
    match row.literals columns with
    | .error e => .error e
    | .ok literals => (renderRows columns rows).map (literals :: ·)

/-- The INSERT statement of rows of cells; there is none without rows. -/
def insertRows (table : String) (columns : List String) (rows : List Row) :
    Except InsertError (Option String) :=
  if rows.isEmpty then .ok none
  else
    match renderRows columns rows with
    | .error e => .error e
    | .ok rendered => (valuesInsert table columns rendered).map some

end SeedScript.Sql
