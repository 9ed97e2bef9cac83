import SeedScript.Schema.Registry

/-!
# The seeded tables

Countries with their currencies, and banks that refer to countries.
-/

namespace SeedScript.Schema

def countries : Table where
  name := "countries"
  columns := [
    ⟨"identifier", .uuid, true, none, none, true, none, ""⟩,
    ⟨"currency_code", .string, false, some 10, none, false, none, ""⟩,
    ⟨"currency", .string, false, some 100, none, false, none, ""⟩,
    ⟨"country", .string, false, some 100, none, false, none, ""⟩,
    ⟨"flag", .text, true, none, none, false, none, ""⟩,
    ⟨"created_at", .timestamptz, false, none, some "NOW()", false, none, ""⟩,
    ⟨"updated_at", .timestamptz, false, none, some "NOW()", false, none, ""⟩]
  insertColumns := ["identifier", "currency_code", "currency", "country", "flag"]

def banks : Table where
  name := "banks"
  columns := [
    ⟨"identifier", .uuid, true, none, none, true, none, ""⟩,
    ⟨"bank_name", .string, false, none, none, false, none, ""⟩,
    ⟨"country_identifier", .uuid, false, none, none, false,
      some ⟨"countries", "identifier", some "CASCADE", some "CASCADE"⟩, ""⟩,
    ⟨"created_date", .timestamptz, false, none, some "NOW()", false, none, ""⟩,
    ⟨"updated_at", .timestamptz, true, none, some "NOW()", false, none, ""⟩]
  insertColumns := ["identifier", "bank_name", "country_identifier"]
  updateTrigger := some ⟨"update_updated_at_column", "update_banks_updated_at", "updated_at"⟩

/-- The registry that every run starts with. -/
def seeded : Registry where
  tables := [countries, banks]
  nodup := by decide
  defined := by decide

end SeedScript.Schema
