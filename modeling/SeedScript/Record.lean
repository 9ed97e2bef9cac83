import SeedScript.Json.Basic
import SeedScript.Validation

/-!
# Records

A country with its currency, and a bank with the discriminator of its country. A record is read
from an object: each field has the keys that may hold it, and the first of them that is present
counts, even if its value is unfit. Other keys are ignored.
-/

namespace SeedScript

structure CountryRecord where
  name : String
  currencyCode : String
  currencyName : String
  countryName : String
  flag : String
deriving DecidableEq, Repr

structure BankRecord where
  bankName : String
  countryDiscriminator : String
deriving DecidableEq, Repr

namespace Record

/-- The keys that may hold a field, the first of which names it, and whether the empty text is
refused. -/
structure Field where
  key : String
  otherKeys : List String := []
  nonempty : Bool := false
deriving DecidableEq, Repr

namespace Field

def keys (f : Field) : List String :=
  f.key :: f.otherKeys

def find? (f : Field) (members : Json.Members) : Option (String × Json) :=
  f.keys.findSome? fun k => (members.get? k).map (k, ·)

def readText (f : Field) (key : String) : Json → Except Validation.Problem String
  | .string (some s) => if f.nonempty && s.isEmpty then .error ⟨[key], .tooShort⟩ else .ok s
  | .string none => .error ⟨[key], .notUnicode⟩
  | _ => .error ⟨[key], .notText⟩

def read (f : Field) (members : Json.Members) : Except Validation.Problem String :=
  match f.find? members with
  | none => .error ⟨[f.key], .missing⟩
  | some (key, value) => f.readText key value

end Field

def problems (results : List (Except Validation.Problem String)) : List Validation.Problem :=
  results.filterMap fun
    | .error p => some p
    | .ok _ => none

/-- The problem of setting a field of a record: records are frozen. Names with an underscore in
front name no field and are outside the record. -/
def assignment? (name : String) : Option Validation.Problem :=
  if name.toList.head? = some '_' then none else some ⟨[name], .frozen⟩

end Record

namespace CountryRecord

open Record (Field)

def nameField : Field := ⟨"name", [], false⟩

def currencyCodeField : Field := ⟨"currency_code", ["currencyCode", "code"], true⟩

def currencyNameField : Field := ⟨"currency_name", ["currencyName"], false⟩

def countryNameField : Field := ⟨"country_name", ["countryName", "country"], true⟩

def flagField : Field := ⟨"flag", [], false⟩

/-- The members with the derived fields filled: the currency name is the name unless one is given,
and a flag that is missing or null is empty. -/
def fill (members : Json.Members) : Json.Members :=
  members ++
    (if (currencyNameField.find? members).isNone then
      [(some "currency_name", (members.get? "name").getD .null)] else []) ++
    (match members.get? "flag" with
      | none | some .null => [(some "flag", .string (some ""))]
      | some _ => [])

def ofMembers (members : Json.Members) : Except (List Validation.Problem) CountryRecord :=
  let filled := fill members
  match nameField.read filled, currencyCodeField.read filled, currencyNameField.read filled,
    countryNameField.read filled, flagField.read filled with
  | .ok name, .ok code, .ok currency, .ok country, .ok flag =>
    .ok ⟨name, code, currency, country, flag⟩
  | name, code, currency, country, flag => .error (Record.problems [name, code, currency, country, flag])

def ofJson : Json → Except (List Validation.Problem) CountryRecord
  | .object members => ofMembers members
  | _ => .error [⟨[], .notRecord "CountryRecord"⟩]

def fields (r : CountryRecord) : List (String × String) := [
  ("name", r.name), ("currency_code", r.currencyCode), ("currency_name", r.currencyName),
  ("country_name", r.countryName), ("flag", r.flag)]

end CountryRecord

namespace BankRecord

open Record (Field)

def bankNameField : Field := ⟨"bank_name", ["bankName"], true⟩

def discriminatorField : Field :=
  ⟨"country_discriminator", ["countryDiscriminator", "country"], true⟩

def ofMembers (members : Json.Members) : Except (List Validation.Problem) BankRecord :=
  match bankNameField.read members, discriminatorField.read members with
  | .ok name, .ok country => .ok ⟨name, country⟩
  | name, country => .error (Record.problems [name, country])

def ofJson : Json → Except (List Validation.Problem) BankRecord
  | .object members => ofMembers members
  | _ => .error [⟨[], .notRecord "BankSeedRecord"⟩]

def fields (r : BankRecord) : List (String × String) := [
  ("bank_name", r.bankName), ("country_discriminator", r.countryDiscriminator)]

end BankRecord
end SeedScript
