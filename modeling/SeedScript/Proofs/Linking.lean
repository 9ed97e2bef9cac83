import SeedScript.Proofs.Script

/-!
# Banks and their countries

A run for both tables links each bank to its country through the identifiers in the two INSERT
statements. The foreign key of a bank that names its country is the primary key of the first country
with that name, and a bank that gives an identifier refers to just that. A full reseed drops earlier
countries, and then only identifiers of the present run should pass.
-/

namespace SeedScript

def cell? (rows : List (List String)) (row column : Nat) : Option String :=
  rows[row]?.bind (·[column]?)

theorem cell?_countryRows {records : List CountryRecord} {ids : List Identifier} {i : Nat}
    {c : CountryRecord} {u : Identifier} (hc : records[i]? = some c) (hu : ids[i]? = some u) :
    cell? (countryRows records ids) i 0 = some u.text := by
  rw [cell?, getElem?_countryRows hc hu]
  rfl

theorem cell?_bankRows {records : List BankRecord} {ids countries : List Identifier} {j : Nat}
    {b : BankRecord} {u v : Identifier} (hb : records[j]? = some b) (hu : ids[j]? = some u)
    (hv : countries[j]? = some v) : cell? (bankRows records ids countries) j 2 = some v.text := by
  rw [cell?, getElem?_bankRows hb hu hv]
  rfl

theorem compileSeed_ghana (fullReseed : Bool) :
    ∃ s t q, compileSeed [⟨"Cedi", "GHS", "Cedi", "Ghana", ""⟩] [⟨"Alpha Bank", " gHANA"⟩] fullReseed
      .counting = (.ok (s, t), q) := by
  have hFound : Resolver.resolveAll
      ⟨true, [.ofNat 0], .ofPairs [(nameKey "Ghana", .ofNat 0)], !fullReseed⟩
      ([BankRecord.mk "Alpha Bank" " gHANA"].map BankRecord.countryDiscriminator) =
        .ok [.ofNat 0] := by
    cases fullReseed <;> decide +kernel
  have hr : Resolver.ofCountries [⟨"Cedi", "GHS", "Cedi", "Ghana", ""⟩] [.ofNat 0] (!fullReseed) =
      .ok ⟨true, [.ofNat 0], .ofPairs [(nameKey "Ghana", .ofNat 0)], !fullReseed⟩ :=
    Resolver.ofCountries_of_length rfl
  exact ⟨_, _, _, compileSeed_eq_ok_iff.mpr ⟨_, _, by decide, hr, hFound, rfl, rfl, rfl⟩⟩

/-- After a full reseed every bank refers to a country of the same run, except where there are banks
and no countries at all. -/
theorem fullReseed_refers_iff {countries : List CountryRecord} {banks : List BankRecord}
    {p q : Progress} {s t : StatementSet}
    (h : compileSeed countries banks true p = (.ok (s, t), q)) :
    ∃ rows, t.rows? = some rows ∧ rows.length = banks.length ∧
      ((∀ j < rows.length, ∃ u ∈ s.identifiers, cell? rows j 2 = some u.text) ↔
        countries ≠ [] ∨ banks = []) := by
  obtain ⟨r, found, -, hr, hFound, rfl, rfl, -⟩ := compileSeed_eq_ok_iff.mp h
  obtain ⟨hLength, hFind⟩ := Resolver.resolveAll_map_eq_ok_iff.mp hFound
  have hIds := (p.afterDraws countries.length).length_draws banks.length
  have hRows := length_bankRows hIds hLength
  refine ⟨_, rows?_bankSet banks true _ found, hRows, ?_⟩
  rw [hRows]
  constructor
  · intro hRefers
    by_contra hNot
    rw [not_or, not_not] at hNot
    obtain ⟨rfl, hBanks⟩ := hNot
    obtain ⟨u, hu, -⟩ := hRefers 0 (List.length_pos_iff.mpr hBanks)
    exact absurd hu List.not_mem_nil
  · rintro (hne | rfl)
    · intro j hj
      have hb := List.getElem?_eq_getElem hj
      obtain ⟨v, hv, hFindBank⟩ := hFind j banks[j] hb
      have hu := (p.afterDraws countries.length).getElem?_draws hj
      exact ⟨v, Resolver.mem_of_find hr hne hFindBank, cell?_bankRows hb hu hv⟩
    · intro j hj
      exact absurd hj (Nat.not_lt_zero j)

theorem fullReseed_refers_ghana :
    ∃ s t q rows, compileSeed [⟨"Cedi", "GHS", "Cedi", "Ghana", ""⟩] [⟨"Alpha Bank", " gHANA"⟩] true
        .counting = (.ok (s, t), q) ∧ t.rows? = some rows ∧ rows.length = 1 ∧
      ∀ j < rows.length, ∃ u ∈ s.identifiers, cell? rows j 2 = some u.text := by
  obtain ⟨s, t, q, hRun⟩ := compileSeed_ghana true
  obtain ⟨rows, hRows, hLength, hRefers⟩ := fullReseed_refers_iff hRun
  exact ⟨s, t, q, rows, hRun, hRows, hLength, hRefers.mpr (.inl (List.cons_ne_nil _ _))⟩

/-- A full reseed without countries accepts the identifier of a country that it drops. -/
theorem fullReseed_refers_dropped :
    ∃ s t q rows, compileSeed [] [⟨"Alpha Bank", "3b0e6c1e-1f6a-4d8e-9a51-0e3c2f1d7a11"⟩] true
        .counting = (.ok (s, t), q) ∧ t.rows? = some rows ∧
      cell? rows 0 2 = some "3b0e6c1e-1f6a-4d8e-9a51-0e3c2f1d7a11" ∧
      ¬ ∀ j < rows.length, ∃ u ∈ s.identifiers, cell? rows j 2 = some u.text := by
  have hFound : Resolver.resolveAll {} ([BankRecord.mk "Alpha Bank"
      "3b0e6c1e-1f6a-4d8e-9a51-0e3c2f1d7a11"].map BankRecord.countryDiscriminator) =
        .ok [.ofNat 0x3b0e6c1e1f6a4d8e9a510e3c2f1d7a11] := by
    decide
  have hr : Resolver.ofCountries [] [] false = .ok {} := rfl
  refine ⟨_, _, _, _, compileSeed_eq_ok_iff.mpr ⟨_, _, by decide, hr, hFound, rfl, rfl, rfl⟩,
    rows?_bankSet _ _ _ _, by decide, fun hRefers => ?_⟩
  obtain ⟨u, hu, -⟩ := hRefers 0 (by decide)
  exact absurd hu List.not_mem_nil

/-- The rows of two sets fit the records and each other: a bank that gives an identifier refers to it,
and one that gives a name to the key in the row of the first country with that name. -/
structure Linked (countries : List CountryRecord) (banks : List BankRecord)
    (countryRows bankRows : List (List String)) : Prop where
  countryCount : countryRows.length = countries.length
  bankCount : bankRows.length = banks.length
  byName : ∀ (j : Nat) (b : BankRecord), banks[j]? = some b →
    Identifier.parse? b.countryDiscriminator = none →
      ∃ i key, Resolver.FirstNamed countries b.countryDiscriminator i ∧
        cell? countryRows i 0 = some key ∧ cell? bankRows j 2 = some key
  byIdentifier : ∀ (j : Nat) (b : BankRecord) (u : Identifier), banks[j]? = some b →
    Identifier.parse? b.countryDiscriminator = some u → cell? bankRows j 2 = some u.text

theorem linked_rows {countries : List CountryRecord} {banks : List BankRecord}
    {countryIds bankIds found : List Identifier} {keepPrior : Bool} {r : Resolver}
    (hCountryIds : countryIds.length = countries.length) (hBankIds : bankIds.length = banks.length)
    (hr : Resolver.ofCountries countries countryIds keepPrior = .ok r)
    (hFound : r.resolveAll (banks.map BankRecord.countryDiscriminator) = .ok found) :
    Linked countries banks (countryRows countries countryIds) (bankRows banks bankIds found) := by
  obtain ⟨hLength, hFind⟩ := Resolver.resolveAll_map_eq_ok_iff.mp hFound
  have hBank : ∀ (j : Nat) (b : BankRecord), banks[j]? = some b →
      ∃ v, r.find b.countryDiscriminator = .ok v ∧
        cell? (bankRows banks bankIds found) j 2 = some v.text := by
    intro j b hb
    obtain ⟨v, hv, hFindBank⟩ := hFind j b hb
    have hj : j < bankIds.length := hBankIds ▸ (List.getElem?_eq_some_iff.mp hb).1
    exact ⟨v, hFindBank, cell?_bankRows hb (List.getElem?_eq_getElem hj) hv⟩
  refine ⟨length_countryRows hCountryIds, length_bankRows hBankIds hLength, ?_, ?_⟩
  · intro j b hb hParse
    obtain ⟨v, hFindBank, hCell⟩ := hBank j b hb
    obtain ⟨i, hNamed, hv⟩ := (Resolver.find_name_iff hr hParse).mp hFindBank
    obtain ⟨c, hc, -⟩ := hNamed.1
    exact ⟨i, v.text, hNamed, cell?_countryRows hc hv, hCell⟩
  · intro j b u hb hParse
    obtain ⟨v, hFindBank, hCell⟩ := hBank j b hb
    rw [Resolver.eq_of_find_of_parse hParse hFindBank] at hCell
    exact hCell

/-- With identifiers that differ from each other, a run for both tables fails exactly when a bank is
refused by the resolver of the countries, with the error of the first such bank; otherwise its rows are
linked, and no two of them share an identifier. -/
theorem compileSeed_links {countries : List CountryRecord} {banks : List BankRecord}
    {fullReseed : Bool} {p : Progress}
    (hDistinct : (p.draws (countries.length + banks.length)).Nodup) :
    ∃ r, Resolver.ofCountries countries (p.draws countries.length) (!fullReseed) = .ok r ∧
      ((∃ e q, compileSeed countries banks fullReseed p.newBatch = (.error e, q)) ↔
        ∃ b ∈ banks, ∃ e, r.resolve b.countryDiscriminator = .error e) ∧
      (∀ e q, compileSeed countries banks fullReseed p.newBatch = (.error e, q) →
        ∃ (j : Nat) (b : BankRecord), banks[j]? = some b ∧
          r.resolve b.countryDiscriminator (some j) = .error e ∧
          (∃ f, e = .failure f ∧ f.problem.type = "DatasetError" ∧ f.stage = .compile ∧
            f.index = some j) ∧
          ∀ i < j, ∀ b', banks[i]? = some b' →
            ∃ u, r.resolve b'.countryDiscriminator (some i) = .ok u) ∧
      ∀ s t q, compileSeed countries banks fullReseed p.newBatch = (.ok (s, t), q) →
        (∃ countryRows bankRows, s.rows? = some countryRows ∧ t.rows? = some bankRows ∧
          Linked countries banks countryRows bankRows) ∧
        s.identifiers.length = countries.length ∧ t.identifiers.length = banks.length ∧
        (s.identifiers ++ t.identifiers).Nodup := by
  obtain ⟨r, hr⟩ := exists_ofCountries countries p (!fullReseed)
  have hFresh := (p.fresh_newBatch_iff _).mpr hDistinct
  have hError : ∀ e q, compileSeed countries banks fullReseed p.newBatch = (.error e, q) →
      ∃ (j : Nat) (b : BankRecord), banks[j]? = some b ∧
        r.resolve b.countryDiscriminator (some j) = .error e ∧
        ∀ i < j, ∀ b', banks[i]? = some b' →
          ∃ u, r.resolve b'.countryDiscriminator (some i) = .ok u := by
    intro e q h
    obtain ⟨hResolve, -⟩ := (compileSeed_eq_error_iff hFresh hr).mp h
    exact Resolver.resolveAll_map_eq_error_iff.mp hResolve
  refine ⟨r, hr, ⟨?_, ?_⟩, ?_, ?_⟩
  · rintro ⟨e, q, h⟩
    obtain ⟨j, b, hb, hd, -⟩ := hError e q h
    obtain ⟨why, hFind, -⟩ := Resolver.resolve_eq_error_iff.mp hd
    exact ⟨b, List.mem_of_getElem? hb, _, Resolver.resolve_of_find_error hFind⟩
  · rintro ⟨b, hb, e, hd⟩
    obtain ⟨why, hFind, -⟩ := Resolver.resolve_eq_error_iff.mp hd
    cases hResolve : r.resolveAll (banks.map BankRecord.countryDiscriminator) with
    | error e' => exact ⟨e', _, (compileSeed_eq_error_iff hFresh hr).mpr ⟨hResolve, rfl⟩⟩
    | ok found =>
      obtain ⟨j, hj⟩ := List.mem_iff_getElem?.mp hb
      obtain ⟨u, -, hu⟩ := (Resolver.resolveAll_map_eq_ok_iff.mp hResolve).2 j b hj
      rw [hFind] at hu
      cases hu
  · intro e q h
    obtain ⟨j, b, hb, hd, hBefore⟩ := hError e q h
    obtain ⟨why, -, rfl⟩ := Resolver.resolve_eq_error_iff.mp hd
    exact ⟨j, b, hb, hd, ⟨_, rfl, rfl, rfl, rfl⟩, hBefore⟩
  · intro s t q h
    obtain ⟨r', found, -, hr', hFound, rfl, rfl, -⟩ := compileSeed_eq_ok_iff.mp h
    have hBankIds := (p.newBatch.afterDraws countries.length).length_draws banks.length
    refine ⟨⟨_, _, rows?_countrySet _ _ _, rows?_bankSet _ _ _ _,
      linked_rows (p.length_draws _) hBankIds hr' hFound⟩, p.length_draws _, hBankIds, ?_⟩
    have hDraws := hFresh.1
    rw [Progress.draws_add] at hDraws
    exact hDraws

/-- Of two countries with one key the first is meant, and the bank that gives an identifier refers to it. -/
theorem compileSeed_links_spelled :
    (∃ q, compileSeed spelledCountries spelledBanks false Progress.counting.newBatch =
      (.ok (spelledCountrySet, spelledBankSet), q)) ∧
    ∃ countryRows bankRows, spelledCountrySet.rows? = some countryRows ∧
      spelledBankSet.rows? = some bankRows ∧
      Linked spelledCountries spelledBanks countryRows bankRows ∧
      cell? countryRows 0 0 = some "00000000-0000-0000-0000-000000000000" ∧
      cell? countryRows 2 0 = some "00000000-0000-0000-0000-000000000002" ∧
      cell? bankRows 0 2 = some "00000000-0000-0000-0000-000000000002" ∧
      cell? bankRows 1 2 = some "3b0e6c1e-1f6a-4d8e-9a51-0e3c2f1d7a11" ∧
      cell? bankRows 2 2 = some "00000000-0000-0000-0000-000000000000" ∧
      (spelledCountrySet.identifiers ++ spelledBankSet.identifiers).Nodup := by
  obtain ⟨q, hRun⟩ := compileSeed_spelled (p := Progress.counting.newBatch) rfl rfl
  have hDistinct : (Progress.counting.draws (spelledCountries.length + spelledBanks.length)).Nodup := by
    decide
  obtain ⟨r, -, -, -, hLinks⟩ := compileSeed_links hDistinct
  obtain ⟨⟨rows, rows', hCountries, hBanks, hLinked⟩, -, -, hNodup⟩ := hLinks _ _ q hRun
  cases hCountries.symm.trans (rows?_countrySet _ _ _)
  cases hBanks.symm.trans (rows?_bankSet _ _ _ _)
  exact ⟨⟨q, hRun⟩, _, _, hCountries, hBanks, hLinked, rfl, rfl, rfl, rfl, rfl, hNodup⟩

end SeedScript
