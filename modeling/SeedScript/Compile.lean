import SeedScript.Progress
import SeedScript.Resolver
import SeedScript.Schema.Seeded
import SeedScript.Sql.Insert
import SeedScript.StatementSet

/-!
# Compiling records

Records become statements in the order they come in, each with a fresh identifier. All
discriminators of banks are resolved before the first identifier is drawn, so a bank without a
country costs none.
-/

namespace SeedScript

def CountryRecord.row (r : CountryRecord) (i : Identifier) : Sql.Row := [
  ("identifier", .identifier i), ("currency_code", .text r.currencyCode),
  ("currency", .text r.currencyName), ("country", .text r.countryName), ("flag", .text r.flag)]

def BankRecord.row (r : BankRecord) (i country : Identifier) : Sql.Row := [
  ("identifier", .identifier i), ("bank_name", .text r.bankName),
  ("country_identifier", .identifier country)]

/-- The definition of a registered table, and the INSERT of its rows. -/
def assemble (name : String) (fullReseed : Bool) (identifiers : List Identifier)
    (rows : List Sql.Row) : Except Error StatementSet := do
  let table ← liftError .registry (Schema.seeded.get name)
  let insert ← liftError .insert (Sql.insertRows table.name table.insertColumns rows)
  pure { table := table.name, ddl := table.statements fullReseed, insert, identifiers }

def StatementSet.compiled (s : StatementSet) (detail : String × Json) : Log.Event where
  name := "statements_compiled"
  severity := .info
  logger := "finpay_seed.domain.reference_data.compiler"
  fields := [("table", Log.Event.text s.table), ("rows", Log.Event.count s.rowCount),
    ("statements", Log.Event.count s.statements.length), detail]

open RunStep

def compileCountries (records : List CountryRecord) (fullReseed : Bool := false) :
    RunStep StatementSet := do
  let identifiers ← assignMany records.length
  let set ← ofResult <| assemble "countries" fullReseed identifiers
    (List.zipWith CountryRecord.row records identifiers)
  report (set.compiled ("full_reseed", .boolean fullReseed))
  pure set

def compileBanks (records : List BankRecord) (resolver : Resolver := {})
    (fullReseed : Bool := false) : RunStep StatementSet := do
  let countries ← ofResult (resolver.resolveAll (records.map BankRecord.countryDiscriminator))
  let identifiers ← assignMany records.length
  let set ← ofResult <| assemble "banks" fullReseed identifiers
    (List.zipWith (fun r (i, country) => r.row i country) records (identifiers.zip countries))
  report (set.compiled ("resolved_by_lookup", .boolean resolver.hasCountries))
  pure set

/-- Compiles countries, and the banks that refer to them. Countries of earlier runs stay valid
unless their table is dropped. -/
def compileSeed (countries : List CountryRecord) (banks : List BankRecord)
    (fullReseed : Bool := false) : RunStep (StatementSet × StatementSet) := do
  let countrySet ← compileCountries countries fullReseed
  let resolver ← ofResult (Resolver.ofCountries countries countrySet.identifiers (!fullReseed))
  let bankSet ← compileBanks banks resolver fullReseed
  pure (countrySet, bankSet)

end SeedScript
