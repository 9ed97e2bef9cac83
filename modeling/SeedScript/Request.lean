import SeedScript.Compile

/-!
# Requests for identifiers

What can be asked for in a batch: one identifier, several, or those of the rows of a set that is compiled.
Requests of one batch draw from the same supply, and no identifier is issued twice.
-/

namespace SeedScript

inductive Request where
  | one
  | several (n : Nat)
  | countries (records : List CountryRecord) (fullReseed : Bool)
  | banks (records : List BankRecord) (resolver : Resolver) (fullReseed : Bool)

namespace Request

open RunStep

/-- How many identifiers a request asks for. -/
def size : Request → Nat
  | one => 1
  | several n => n
  | countries records _ => records.length
  | banks records _ _ => records.length

/-- The identifiers that a request returns; a set that is compiled returns those of its rows. -/
def run : Request → RunStep (List Identifier)
  | one => do
    let i ← assign
    pure [i]
  | several n => assignMany n
  | countries records fullReseed => do
    let s ← compileCountries records fullReseed
    pure s.identifiers
  | banks records resolver fullReseed => do
    let s ← compileBanks records resolver fullReseed
    pure s.identifiers

/-- Carries requests out one after the other, failed ones included. -/
def runAll (requests : List Request) (p : Progress) :
    List (Except Error (List Identifier)) × Progress :=
  requests.foldl (fun done request =>
    (done.1 ++ [(request.run done.2).1], (request.run done.2).2)) ([], p)

end Request
end SeedScript
