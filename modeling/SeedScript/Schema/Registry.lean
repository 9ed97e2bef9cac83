import SeedScript.Schema.Ddl
import SeedScript.Text.Quoted

/-!
# The table registry

Tables are registered once under their names and are never changed. A registry lists them in
order of registration, and that their names differ and that each inserts only columns it defines
is part of its type.
-/

namespace SeedScript.Schema

inductive RegistryError where
  | taken (table : String)
  | undefinedColumns (table : String) (columns : List String)
  | notFound (table : String) (available : List String)
deriving DecidableEq

namespace RegistryError

def message : RegistryError → String
  | taken table =>
    "Table '" ++ table ++
      "' is already registered. Use a different table_name or unregister first."
  | undefinedColumns table columns =>
    "Table '" ++ table ++ "' inserts undefined columns: " ++ Text.quotedList columns
  | notFound table available =>
    "Table '" ++ table ++ "' not found in registry. Available: " ++ Text.quotedList available

end RegistryError

structure Registry where
  tables : List Table
  nodup : (tables.map Table.name).Nodup
  defined : ∀ t ∈ tables, t.undefinedColumns = []

namespace Registry

def empty : Registry := ⟨[], List.nodup_nil, fun _ h => nomatch h⟩

def names (r : Registry) : List String :=
  r.tables.map Table.name

def register (r : Registry) (t : Table) : Except RegistryError Registry :=
  if taken : t.name ∈ r.names then .error (.taken t.name)
  else if undefined : t.undefinedColumns = [] then
    .ok {
      tables := r.tables ++ [t]
      nodup := by
        have h : t.name ∉ r.tables.map Table.name := taken
        simpa [List.nodup_append, r.nodup] using
          fun u hu => fun hn => h (List.mem_map.2 ⟨u, hu, hn⟩)
      defined := by
        intro u hu
        rcases List.mem_append.1 hu with hu | hu
        · exact r.defined u hu
        · rw [List.mem_singleton.1 hu]; exact undefined }
  else .error (.undefinedColumns t.name t.undefinedColumns)

def get (r : Registry) (name : String) : Except RegistryError Table :=
  match r.tables.find? (·.name = name) with
  | some t => .ok t
  | none => .error (.notFound name r.names)

def insertColumns (r : Registry) (name : String) : Except RegistryError (List String) :=
  (r.get name).map Table.insertColumns

def dropStatement (r : Registry) (name : String) : Except RegistryError String :=
  (r.get name).map fun t => Schema.dropStatement t.name

def createStatement (r : Registry) (name : String) (ifNotExists : Bool := true) :
    Except RegistryError String :=
  (r.get name).map fun t => t.createStatement ifNotExists

def triggerStatements (r : Registry) (name : String) : Except RegistryError (List String) :=
  (r.get name).map Table.triggerStatements

def tableStatements (r : Registry) (name : String) (fullReseed : Bool := false) :
    Except RegistryError (List String) :=
  (r.get name).map fun t => t.statements fullReseed

end Registry
end SeedScript.Schema
