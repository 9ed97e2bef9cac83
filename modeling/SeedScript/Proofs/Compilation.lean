import SeedScript.Compile
import SeedScript.Proofs.Batch
import SeedScript.Proofs.Resolution
import SeedScript.Proofs.Sql.Insertion

/-!
# What compiling gives

The set of a seeded table has the definition of the table and one row of texts for each record: the
identifier drawn for it, the fields of the record and, for a bank, the identifier of its country.
Compiling succeeds exactly when the identifiers drawn are fresh and, for banks, every discriminator
is resolved; an unresolved one is found before anything is drawn.
-/

namespace SeedScript

namespace CountryRecord

def texts (c : CountryRecord) (i : Identifier) : List String :=
  [i.text, c.currencyCode, c.currencyName, c.countryName, c.flag]

theorem covers_row (c : CountryRecord) (i : Identifier) :
    (c.row i).Covers Schema.countries.insertColumns := by
  intro column hColumn
  simp only [Schema.countries, List.mem_cons, List.not_mem_nil, or_false] at hColumn
  rcases hColumn with rfl | rfl | rfl | rfl | rfl <;> rfl

end CountryRecord

namespace BankRecord

def texts (b : BankRecord) (i country : Identifier) : List String :=
  [i.text, b.bankName, country.text]

theorem covers_row (b : BankRecord) (i country : Identifier) :
    (b.row i country).Covers Schema.banks.insertColumns := by
  intro column hColumn
  simp only [Schema.banks, List.mem_cons, List.not_mem_nil, or_false] at hColumn
  rcases hColumn with rfl | rfl | rfl <;> rfl

end BankRecord

def Schema.Table.seedSet (t : Schema.Table) (fullReseed : Bool) (rows : List (List String))
    (ids : List Identifier) : StatementSet where
  table := t.name
  ddl := t.statements fullReseed
  insert := Sql.insertText? t.name t.insertColumns rows
  identifiers := ids

theorem assemble_of_covers {t : Schema.Table} (hGet : Schema.seeded.get t.name = .ok t)
    {rows : List Sql.Row} (h : ∀ row ∈ rows, row.Covers t.insertColumns) (fullReseed : Bool)
    (ids : List Identifier) :
    assemble t.name fullReseed ids rows =
      .ok (t.seedSet fullReseed (rows.map (Sql.Row.displays t.insertColumns)) ids) := by
  rw [assemble, hGet]
  simp only [liftError, Except.mapError, bind, Except.bind, Sql.insertRows_of_covers t.name h]
  rfl

theorem exists_of_mem_zipWith {α β γ : Type} {f : α → β → γ} {xs : List α} {ys : List β} {z : γ}
    (h : z ∈ List.zipWith f xs ys) : ∃ x y, z = f x y := by
  rw [← List.map_uncurry_zip_eq_zipWith] at h
  obtain ⟨⟨x, y⟩, -, rfl⟩ := List.mem_map.mp h
  exact ⟨x, y, rfl⟩

def countryRows (records : List CountryRecord) (ids : List Identifier) : List (List String) :=
  List.zipWith CountryRecord.texts records ids

def bankRows (records : List BankRecord) (ids countries : List Identifier) : List (List String) :=
  List.zipWith (fun b (i, country) => b.texts i country) records (ids.zip countries)

theorem length_countryRows {records : List CountryRecord} {ids : List Identifier}
    (h : ids.length = records.length) : (countryRows records ids).length = records.length := by
  rw [countryRows, List.length_zipWith, h, Nat.min_self]

theorem getElem?_countryRows {records : List CountryRecord} {ids : List Identifier} {i : Nat}
    {c : CountryRecord} {u : Identifier} (hc : records[i]? = some c) (hu : ids[i]? = some u) :
    (countryRows records ids)[i]? = some (c.texts u) := by
  rw [countryRows, List.getElem?_zipWith, hc, hu]

theorem length_bankRows {records : List BankRecord} {ids countries : List Identifier}
    (hIds : ids.length = records.length) (hCountries : countries.length = records.length) :
    (bankRows records ids countries).length = records.length := by
  rw [bankRows, List.length_zipWith, List.length_zip, hIds, hCountries, Nat.min_self, Nat.min_self]

theorem getElem?_bankRows {records : List BankRecord} {ids countries : List Identifier} {i : Nat}
    {b : BankRecord} {u v : Identifier} (hb : records[i]? = some b) (hu : ids[i]? = some u)
    (hv : countries[i]? = some v) : (bankRows records ids countries)[i]? = some (b.texts u v) := by
  have hZip : (ids.zip countries)[i]? = some (u, v) := by
    rw [List.zip, List.getElem?_zipWith, hu, hv]
  rw [bankRows, List.getElem?_zipWith, hb, hZip]

theorem ne_nil_of_mem_countryRows {records : List CountryRecord} {ids : List Identifier}
    {row : List String} (h : row ∈ countryRows records ids) : row ≠ [] := by
  obtain ⟨c, i, rfl⟩ := exists_of_mem_zipWith h
  exact List.cons_ne_nil _ _

theorem ne_nil_of_mem_bankRows {records : List BankRecord} {ids countries : List Identifier}
    {row : List String} (h : row ∈ bankRows records ids countries) : row ≠ [] := by
  obtain ⟨b, ⟨i, country⟩, rfl⟩ := exists_of_mem_zipWith h
  exact List.cons_ne_nil _ _

theorem assemble_countries (records : List CountryRecord) (fullReseed : Bool)
    (ids : List Identifier) :
    assemble "countries" fullReseed ids (List.zipWith CountryRecord.row records ids) =
      .ok (Schema.countries.seedSet fullReseed (countryRows records ids) ids) := by
  have hCovers : ∀ row ∈ List.zipWith CountryRecord.row records ids,
      row.Covers Schema.countries.insertColumns := by
    intro row hRow
    obtain ⟨c, i, rfl⟩ := exists_of_mem_zipWith hRow
    exact c.covers_row i
  have h := assemble_of_covers (t := Schema.countries) rfl hCovers fullReseed ids
  rw [List.map_zipWith] at h
  exact h

theorem assemble_banks (records : List BankRecord) (fullReseed : Bool)
    (ids countries : List Identifier) :
    assemble "banks" fullReseed ids
        (List.zipWith (fun r (i, country) => r.row i country) records (ids.zip countries)) =
      .ok (Schema.banks.seedSet fullReseed (bankRows records ids countries) ids) := by
  have hCovers : ∀ row ∈ List.zipWith
      (fun (r : BankRecord) ((i, country) : Identifier × Identifier) => r.row i country) records
        (ids.zip countries), row.Covers Schema.banks.insertColumns := by
    intro row hRow
    obtain ⟨b, ⟨i, country⟩, rfl⟩ := exists_of_mem_zipWith hRow
    exact b.covers_row i country
  have h := assemble_of_covers (t := Schema.banks) rfl hCovers fullReseed ids
  rw [List.map_zipWith] at h
  exact h

def countrySet (records : List CountryRecord) (fullReseed : Bool) (ids : List Identifier) :
    StatementSet :=
  Schema.countries.seedSet fullReseed (countryRows records ids) ids

def bankSet (records : List BankRecord) (fullReseed : Bool) (ids countries : List Identifier) :
    StatementSet :=
  Schema.banks.seedSet fullReseed (bankRows records ids countries) ids

open RunStep

theorem compileCountries_of_fresh {records : List CountryRecord} {p : Progress}
    (h : p.Fresh records.length) (fullReseed : Bool) :
    compileCountries records fullReseed p =
      (.ok (countrySet records fullReseed (p.draws records.length)),
        (p.afterDraws records.length).reported
          ((countrySet records fullReseed (p.draws records.length)).compiled
            ("full_reseed", .boolean fullReseed))) := by
  rw [compileCountries, bind_of_ok (assignMany_of_fresh h), assemble_countries,
    bind_of_ok (ofResult_apply _ _)]
  rfl

theorem compileCountries_of_error {records : List CountryRecord} {p q : Progress} {e : Error}
    (h : assignMany records.length p = (.error e, q)) (fullReseed : Bool) :
    compileCountries records fullReseed p = (.error e, q) := by
  rw [compileCountries, bind_of_error h]

theorem compileCountries_eq_ok_iff {records : List CountryRecord} {fullReseed : Bool}
    {p q : Progress} {s : StatementSet} :
    compileCountries records fullReseed p = (.ok s, q) ↔
      p.Fresh records.length ∧ s = countrySet records fullReseed (p.draws records.length) ∧
        q = (p.afterDraws records.length).reported
          (s.compiled ("full_reseed", .boolean fullReseed)) := by
  constructor
  · intro h
    rcases hAssign : assignMany records.length p with ⟨e | ids, p'⟩
    · rw [compileCountries_of_error hAssign] at h
      cases h
    · obtain ⟨hFresh, -, -⟩ := assignMany_eq_ok_iff.mp hAssign
      rw [compileCountries_of_fresh hFresh] at h
      cases h
      exact ⟨hFresh, rfl, rfl⟩
  · rintro ⟨hFresh, rfl, rfl⟩
    exact compileCountries_of_fresh hFresh fullReseed

theorem compileBanks_of_resolved {records : List BankRecord} {r : Resolver} {p : Progress}
    {countries : List Identifier}
    (hResolve : r.resolveAll (records.map BankRecord.countryDiscriminator) = .ok countries)
    (hFresh : p.Fresh records.length) (fullReseed : Bool) :
    compileBanks records r fullReseed p =
      (.ok (bankSet records fullReseed (p.draws records.length) countries),
        (p.afterDraws records.length).reported
          ((bankSet records fullReseed (p.draws records.length) countries).compiled
            ("resolved_by_lookup", .boolean r.hasCountries))) := by
  rw [compileBanks, hResolve, bind_of_ok (ofResult_apply _ _),
    bind_of_ok (assignMany_of_fresh hFresh), assemble_banks, bind_of_ok (ofResult_apply _ _)]
  rfl

/-- A bank without a country costs no identifier and leaves no event. -/
theorem compileBanks_of_unresolved {records : List BankRecord} {r : Resolver} {e : Error}
    (hResolve : r.resolveAll (records.map BankRecord.countryDiscriminator) = .error e)
    (fullReseed : Bool) (p : Progress) :
    compileBanks records r fullReseed p = (.error e, p) := by
  rw [compileBanks, hResolve, bind_of_error (ofResult_apply _ _)]

theorem compileBanks_of_repeated {records : List BankRecord} {r : Resolver} {p q : Progress}
    {countries : List Identifier} {e : Error}
    (hResolve : r.resolveAll (records.map BankRecord.countryDiscriminator) = .ok countries)
    (hAssign : assignMany records.length p = (.error e, q)) (fullReseed : Bool) :
    compileBanks records r fullReseed p = (.error e, q) := by
  rw [compileBanks, hResolve, bind_of_ok (ofResult_apply _ _), bind_of_error hAssign]

theorem compileBanks_eq_ok_iff {records : List BankRecord} {r : Resolver} {fullReseed : Bool}
    {p q : Progress} {s : StatementSet} :
    compileBanks records r fullReseed p = (.ok s, q) ↔
      ∃ countries, r.resolveAll (records.map BankRecord.countryDiscriminator) = .ok countries ∧
        p.Fresh records.length ∧
        s = bankSet records fullReseed (p.draws records.length) countries ∧
        q = (p.afterDraws records.length).reported
          (s.compiled ("resolved_by_lookup", .boolean r.hasCountries)) := by
  constructor
  · intro h
    cases hResolve : r.resolveAll (records.map BankRecord.countryDiscriminator) with
    | error e =>
      rw [compileBanks_of_unresolved hResolve] at h
      cases h
    | ok countries =>
      rcases hAssign : assignMany records.length p with ⟨e | ids, p'⟩
      · rw [compileBanks_of_repeated hResolve hAssign] at h
        cases h
      · obtain ⟨hFresh, -, -⟩ := assignMany_eq_ok_iff.mp hAssign
        rw [compileBanks_of_resolved hResolve hFresh] at h
        cases h
        exact ⟨countries, rfl, hFresh, rfl, rfl⟩
  · rintro ⟨countries, hResolve, hFresh, rfl, rfl⟩
    exact compileBanks_of_resolved hResolve hFresh fullReseed

/-- The progress of a run that has drawn the identifiers of its countries and reported their set. -/
def Progress.afterCountries (p : Progress) (records : List CountryRecord) (fullReseed : Bool) :
    Progress :=
  (p.afterDraws records.length).reported
    ((countrySet records fullReseed (p.draws records.length)).compiled
      ("full_reseed", .boolean fullReseed))

/-- The countries of a run always make a resolver with the identifiers that they have drawn. -/
theorem exists_ofCountries (countries : List CountryRecord) (p : Progress) (keepPrior : Bool) :
    ∃ r, Resolver.ofCountries countries (p.draws countries.length) keepPrior = .ok r :=
  ⟨_, Resolver.ofCountries_of_length (p.length_draws countries.length).symm⟩

theorem compileSeed_of_fresh {countries : List CountryRecord} {banks : List BankRecord}
    {fullReseed : Bool} {p : Progress} {r : Resolver} (hFresh : p.Fresh countries.length)
    (hr : Resolver.ofCountries countries (p.draws countries.length) (!fullReseed) = .ok r) :
    compileSeed countries banks fullReseed p =
      (compileBanks banks r fullReseed >>= fun t =>
        pure (countrySet countries fullReseed (p.draws countries.length), t))
          (p.afterCountries countries fullReseed) := by
  have hIds : (countrySet countries fullReseed (p.draws countries.length)).identifiers =
      p.draws countries.length := rfl
  rw [compileSeed, bind_of_ok (compileCountries_of_fresh hFresh fullReseed), hIds, hr,
    bind_of_ok (ofResult_apply _ _)]
  rfl

theorem compileSeed_of_unresolved {countries : List CountryRecord} {banks : List BankRecord}
    {fullReseed : Bool} {p : Progress} {r : Resolver} {e : Error}
    (hFresh : p.Fresh countries.length)
    (hr : Resolver.ofCountries countries (p.draws countries.length) (!fullReseed) = .ok r)
    (hResolve : r.resolveAll (banks.map BankRecord.countryDiscriminator) = .error e) :
    compileSeed countries banks fullReseed p = (.error e, p.afterCountries countries fullReseed) := by
  rw [compileSeed_of_fresh hFresh hr, bind_of_error (compileBanks_of_unresolved hResolve _ _)]

/-- Both tables are compiled exactly when all identifiers are fresh and the countries resolve every
bank. -/
theorem compileSeed_eq_ok_iff {countries : List CountryRecord} {banks : List BankRecord}
    {fullReseed : Bool} {p q : Progress} {s t : StatementSet} :
    compileSeed countries banks fullReseed p = (.ok (s, t), q) ↔
      ∃ r found, p.Fresh (countries.length + banks.length) ∧
        Resolver.ofCountries countries (p.draws countries.length) (!fullReseed) = .ok r ∧
        r.resolveAll (banks.map BankRecord.countryDiscriminator) = .ok found ∧
        s = countrySet countries fullReseed (p.draws countries.length) ∧
        t = bankSet banks fullReseed ((p.afterDraws countries.length).draws banks.length) found ∧
        q = ((p.afterCountries countries fullReseed).afterDraws banks.length).reported
          (t.compiled ("resolved_by_lookup", .boolean r.hasCountries)) := by
  constructor
  · intro h
    rw [compileSeed] at h
    obtain ⟨s', p', hCountries, h⟩ := bind_eq_ok_iff.mp h
    obtain ⟨hFresh, rfl, rfl⟩ := compileCountries_eq_ok_iff.mp hCountries
    obtain ⟨r, p', hResolver, h⟩ := bind_eq_ok_iff.mp h
    obtain ⟨hr, rfl⟩ := ofResult_eq_ok_iff.mp hResolver
    obtain ⟨t', p', hBanks, h⟩ := bind_eq_ok_iff.mp h
    cases h
    obtain ⟨found, hFound, hRest, rfl, rfl⟩ := compileBanks_eq_ok_iff.mp hBanks
    exact ⟨r, found, (p.fresh_add_iff _ _).mpr ⟨hFresh, hRest⟩, hr, hFound, rfl, rfl, rfl⟩
  · rintro ⟨r, found, hFresh, hr, hFound, rfl, rfl, rfl⟩
    obtain ⟨hFirst, hRest⟩ := (p.fresh_add_iff _ _).mp hFresh
    have hRest : (p.afterCountries countries fullReseed).Fresh banks.length := hRest
    rw [compileSeed_of_fresh hFirst hr, bind_of_ok (compileBanks_of_resolved hFound hRest fullReseed)]
    rfl

/-- With fresh identifiers, only a bank that the countries do not resolve fails the run. -/
theorem compileSeed_eq_error_iff {countries : List CountryRecord} {banks : List BankRecord}
    {fullReseed : Bool} {p q : Progress} {r : Resolver} {e : Error}
    (hFresh : p.Fresh (countries.length + banks.length))
    (hr : Resolver.ofCountries countries (p.draws countries.length) (!fullReseed) = .ok r) :
    compileSeed countries banks fullReseed p = (.error e, q) ↔
      r.resolveAll (banks.map BankRecord.countryDiscriminator) = .error e ∧
        q = p.afterCountries countries fullReseed := by
  cases hResolve : r.resolveAll (banks.map BankRecord.countryDiscriminator) with
  | error e' =>
    rw [compileSeed_of_unresolved ((p.fresh_add_iff _ _).mp hFresh).1 hr hResolve]
    constructor
    · intro h
      cases h
      exact ⟨rfl, rfl⟩
    · rintro ⟨h, rfl⟩
      cases h
      rfl
  | ok found =>
    rw [compileSeed_eq_ok_iff.mpr ⟨r, found, hFresh, hr, hResolve, rfl, rfl, rfl⟩]
    constructor
    · intro h
      cases h
    · rintro ⟨h, -⟩
      cases h

/-! ## Names in several spellings -/

/-- Three countries, two of them with one key. -/
def spelledCountries : List CountryRecord :=
  ["Mali", "mALI ", "Togo"].map fun name => ⟨"Franc", "XOF", "Franc", name, ""⟩

/-- Three banks, of which one gives an identifier. -/
def spelledBanks : List BankRecord :=
  ["togo", "3b0e6c1e-1f6a-4d8e-9a51-0e3c2f1d7a11", " Mali"].map fun d => ⟨" Bank", d⟩

def spelledCountrySet : StatementSet :=
  countrySet spelledCountries false [.ofNat 0, .ofNat 1, .ofNat 2]

def spelledBankSet : StatementSet :=
  bankSet spelledBanks false [.ofNat 3, .ofNat 4, .ofNat 5]
    [.ofNat 2, .ofNat 0x3b0e6c1e1f6a4d8e9a510e3c2f1d7a11, .ofNat 0]

theorem compileSeed_spelled {p : Progress} (hIdentifiers : p.identifiers = Progress.counting.identifiers)
    (hIssued : p.issued = []) :
    ∃ q, compileSeed spelledCountries spelledBanks false p =
      (.ok (spelledCountrySet, spelledBankSet), q) := by
  have hDraws : ∀ n, p.draws n = Progress.counting.draws n := by
    intro n
    rw [Progress.draws, hIdentifiers, Progress.draws]
  have hFresh : p.Fresh 6 := by
    rw [Progress.Fresh, hDraws, hIssued]
    decide
  have hAfter : (p.afterDraws 3).draws 3 = [.ofNat 3, .ofNat 4, .ofNat 5] := by
    rw [Progress.draws, Progress.afterDraws, hIdentifiers]
    rfl
  have hResolver : Resolver.ofCountries spelledCountries (p.draws 3) true = .ok ⟨true,
      [.ofNat 0, .ofNat 1, .ofNat 2], .ofPairs (List.zip
        (spelledCountries.map fun c => nameKey c.countryName) [.ofNat 0, .ofNat 1, .ofNat 2]), true⟩ := by
    rw [hDraws]
    exact Resolver.ofCountries_of_length rfl
  have hFound : Resolver.resolveAll ⟨true, [.ofNat 0, .ofNat 1, .ofNat 2], .ofPairs (List.zip
      (spelledCountries.map fun c => nameKey c.countryName) [.ofNat 0, .ofNat 1, .ofNat 2]), true⟩
        (spelledBanks.map BankRecord.countryDiscriminator) =
          .ok [.ofNat 2, .ofNat 0x3b0e6c1e1f6a4d8e9a510e3c2f1d7a11, .ofNat 0] := by
    decide +kernel
  refine ⟨_, compileSeed_eq_ok_iff.mpr ⟨_, _, hFresh, hResolver, hFound, ?_, ?_, rfl⟩⟩
  · rw [spelledCountrySet, ← show p.draws 3 = [.ofNat 0, .ofNat 1, .ofNat 2] from hDraws 3]
    rfl
  · rw [spelledBankSet, ← hAfter]
    rfl

end SeedScript
