import SeedScript.Proofs.Canonical
import SeedScript.Proofs.Compilation
import SeedScript.Proofs.Scan

/-!
# Runs compared

Runs that draw from the same supply are compared here. A full reseed drops each table before it is made, and
in a run for both tables it refuses identifiers of earlier runs. Main statements: apart from that it changes
nothing, and banks that give identifiers are compiled alike with countries and without.
-/

namespace SeedScript

/-! ## Resolvers compared -/

namespace Resolver

variable {records : List CountryRecord} {ids found : List Identifier} {keepPrior : Bool}
  {r kept strict : Resolver} {d : String} {u : Identifier}

theorem StandsFor.mono (h : StandsFor records ids false d u) (keepPrior : Bool) :
    StandsFor records ids keepPrior d u := by
  cases h with
  | identifier hParse hKnown =>
    refine .identifier hParse ?_
    rcases hKnown with hNone | hMem | hKept
    · exact .inl hNone
    · exact .inr (.inl hMem)
    · cases hKept
  | name hParse hSome hNamed hGet => exact .name hParse hSome hNamed hGet

/-- Only an identifier of an earlier run loses its meaning when these are not kept. -/
theorem StandsFor.known_or_foreign (h : StandsFor records ids keepPrior d u) :
    StandsFor records ids false d u ∨
      records ≠ [] ∧ Identifier.parse? d = some u ∧ u ∉ ids := by
  cases h with
  | identifier hParse hKnown =>
    by_cases hForeign : records ≠ [] ∧ u ∉ ids
    · exact .inr ⟨hForeign.1, hParse, hForeign.2⟩
    · rw [not_and_or, not_not, not_not] at hForeign
      refine .inl (.identifier hParse ?_)
      exact hForeign.imp_right .inl
  | name hParse hSome hNamed hGet => exact .inl (.name hParse hSome hNamed hGet)

/-- The first bank whose discriminator is an identifier other than these. -/
structure FirstForeign (banks : List BankRecord) (ids : List Identifier) (j : Nat) (b : BankRecord)
    (u : Identifier) : Prop where
  get : banks[j]? = some b
  parse : Identifier.parse? b.countryDiscriminator = some u
  foreign : u ∉ ids
  first : ∀ i < j, ∀ b' v, banks[i]? = some b' → Identifier.parse? b'.countryDiscriminator = some v →
    v ∈ ids

variable {banks : List BankRecord} {e : Error}

theorem resolveAll_of_strict (hStrict : ofCountries records ids false = .ok strict)
    (hKept : ofCountries records ids keepPrior = .ok kept) {ds : List String}
    (h : strict.resolveAll ds = .ok found) : kept.resolveAll ds = .ok found := by
  rw [(scans_ofCountries hStrict).resolveAll_ok] at h
  rw [(scans_ofCountries hKept).resolveAll_ok]
  exact h.imp fun _ _ hStands => hStands.mono keepPrior

/-- Where all banks are resolved if earlier identifiers are kept, and not otherwise, such an identifier is
the reason. -/
theorem firstForeign_of_strict (hKept : ofCountries records ids keepPrior = .ok kept)
    (hStrict : ofCountries records ids false = .ok strict)
    (hOk : kept.resolveAll (banks.map BankRecord.countryDiscriminator) = .ok found)
    (hError : strict.resolveAll (banks.map BankRecord.countryDiscriminator) = .error e) :
    ∃ j b u, FirstForeign banks ids j b u ∧
      e = .ofProblem (.unresolved b.countryDiscriminator .foreignIdentifier) none (some j) := by
  obtain ⟨-, hFound⟩ := resolveAll_map_eq_ok_iff.mp hOk
  obtain ⟨j, b, hb, hResolve, hBefore⟩ := resolveAll_map_eq_error_iff.mp hError
  obtain ⟨why, hFind, rfl⟩ := resolve_eq_error_iff.mp hResolve
  have hRefused := (refused_iff hStrict).mpr ⟨why, hFind⟩
  obtain ⟨u, -, hu⟩ := hFound j b hb
  obtain hKnown | ⟨hSome, hParse, hForeign⟩ := ((find_eq_ok_iff hKept).mp hu).known_or_foreign
  · exact absurd hKnown (hRefused u)
  · have hWhy : why = .foreignIdentifier := by
      rw [find_eq_of_parse hParse] at hFind
      split at hFind
      · cases hFind
      · exact (Except.error.inj hFind).symm
    subst hWhy
    refine ⟨j, b, u, ⟨hb, hParse, hForeign, fun i hi b' v hb' hv => ?_⟩, rfl⟩
    obtain ⟨v', hv'⟩ := hBefore i hi b' hb'
    obtain ⟨rfl, hKnown⟩ := (find_identifier_iff hStrict hv).mp (resolve_eq_ok_iff.mp hv')
    rcases hKnown with hNone | hMem | hKept'
    · exact absurd hNone hSome
    · exact hMem
    · cases hKept'

/-- Identifiers stand for themselves wherever all of them are accepted. -/
theorem resolveAll_of_parse (hAccepts : ∀ i, (!r.hasCountries || r.keepPrior || r.known.contains i) = true)
    {ds : List String} (h : List.Forall₂ (fun d i => Identifier.parse? d = some i) ds found) :
    r.resolveAll ds = .ok found := by
  rw [resolveAll, resolveFrom_eq_ok_iff]
  refine h.imp fun d i hParse => ?_
  rw [find_eq_of_parse hParse, if_pos (hAccepts i)]

end Resolver

/-! ## A full reseed -/

/-- The second set drops the table first, and agrees with the first set in all the rest. -/
structure StatementSet.DropsFirst (s t : StatementSet) : Prop where
  table : t.table = s.table
  statements : t.statements = ("DROP TABLE IF EXISTS " ++ s.table ++ " CASCADE") :: s.statements
  insert : t.insert = s.insert
  identifiers : t.identifiers = s.identifiers

/-- What a full reseed makes of a result. -/
inductive AddsDrop : Except Error StatementSet → Except Error StatementSet → Prop
  | ok {s t : StatementSet} : s.DropsFirst t → AddsDrop (.ok s) (.ok t)
  | error (e : Error) : AddsDrop (.error e) (.error e)

theorem Schema.Table.dropsFirst_seedSet {t : Schema.Table} (h : Sql.quoteName t.name = t.name)
    (rows : List (List String)) (ids : List Identifier) :
    (t.seedSet false rows ids).DropsFirst (t.seedSet true rows ids) where
  table := rfl
  statements := by
    have hDrop : Schema.dropStatement t.name = "DROP TABLE IF EXISTS " ++ t.name ++ " CASCADE" := by
      unfold Schema.dropStatement
      rw [h]
      simp only [if_true]
    have hStatements : t.statements true = Schema.dropStatement t.name :: t.statements false := rfl
    simp only [StatementSet.statements, seedSet, hStatements, hDrop, List.cons_append]
  insert := rfl
  identifiers := rfl

theorem dropsFirst_countrySet (records : List CountryRecord) (ids : List Identifier) :
    (countrySet records false ids).DropsFirst (countrySet records true ids) :=
  Schema.Table.dropsFirst_seedSet (by decide) _ _

theorem dropsFirst_bankSet (records : List BankRecord) (ids countries : List Identifier) :
    (bankSet records false ids countries).DropsFirst (bankSet records true ids countries) :=
  Schema.Table.dropsFirst_seedSet (by decide) _ _

open RunStep

theorem compileCountries_reseed (records : List CountryRecord) (p : Progress) :
    AddsDrop (compileCountries records false p).1 (compileCountries records true p).1 := by
  rcases hAssign : assignMany records.length p with ⟨e | ids, q⟩
  · rw [compileCountries_of_error hAssign, compileCountries_of_error hAssign]
    exact .error e
  · obtain ⟨hFresh, -, -⟩ := assignMany_eq_ok_iff.mp hAssign
    rw [compileCountries_of_fresh hFresh, compileCountries_of_fresh hFresh]
    exact .ok (dropsFirst_countrySet _ _)

theorem compileBanks_reseed (records : List BankRecord) (r : Resolver) (p : Progress) :
    AddsDrop (compileBanks records r false p).1 (compileBanks records r true p).1 := by
  cases hResolve : r.resolveAll (records.map BankRecord.countryDiscriminator) with
  | error e =>
    rw [compileBanks_of_unresolved hResolve, compileBanks_of_unresolved hResolve]
    exact .error e
  | ok countries =>
    rcases hAssign : assignMany records.length p with ⟨e | ids, q⟩
    · rw [compileBanks_of_repeated hResolve hAssign, compileBanks_of_repeated hResolve hAssign]
      exact .error e
    · obtain ⟨hFresh, -, -⟩ := assignMany_eq_ok_iff.mp hAssign
      rw [compileBanks_of_resolved hResolve hFresh, compileBanks_of_resolved hResolve hFresh]
      exact .ok (dropsFirst_bankSet _ _ _)

variable {countries : List CountryRecord} {banks : List BankRecord} {p q q' : Progress}
  {s t : StatementSet} {e : Error}

theorem compileSeed_of_reseed (h : compileSeed countries banks true p = (.ok (s, t), q)) :
    ∃ s' t' q', compileSeed countries banks false p = (.ok (s', t'), q') ∧ s'.DropsFirst s ∧
      t'.DropsFirst t := by
  obtain ⟨strict, found, hFresh, hStrict, hFound, rfl, rfl, -⟩ := compileSeed_eq_ok_iff.mp h
  obtain ⟨kept, hKept⟩ := exists_ofCountries countries p true
  have hFound' := Resolver.resolveAll_of_strict hStrict hKept hFound
  exact ⟨_, _, _, compileSeed_eq_ok_iff.mpr ⟨kept, found, hFresh, hKept, hFound', rfl, rfl, rfl⟩,
    dropsFirst_countrySet _ _, dropsFirst_bankSet _ _ _⟩

theorem foreign_of_reseed (h : compileSeed countries banks false p = (.ok (s, t), q))
    (hReseed : compileSeed countries banks true p = (.error e, q')) :
    ∃ j b u, Resolver.FirstForeign banks s.identifiers j b u ∧
      e = .ofProblem (.unresolved b.countryDiscriminator .foreignIdentifier) none (some j) := by
  obtain ⟨kept, found, hFresh, hKept, hFound, rfl, -, -⟩ := compileSeed_eq_ok_iff.mp h
  obtain ⟨strict, hStrict⟩ := exists_ofCountries countries p (!true)
  obtain ⟨hError, -⟩ := (compileSeed_eq_error_iff hFresh hStrict).mp hReseed
  exact Resolver.firstForeign_of_strict hKept hStrict hFound hError

/-- A full reseed of one table adds the statement that drops the table, and nothing else. So does one of both
tables where it succeeds, and that run succeeds without it as well. Where only the full reseed fails, some
bank gives an identifier that no country of the run has, and the first such bank is reported. -/
theorem fullReseed_drops (countries : List CountryRecord) (banks : List BankRecord) (r : Resolver)
    (p : Progress) :
    AddsDrop (compileCountries countries false p).1 (compileCountries countries true p).1 ∧
    AddsDrop (compileBanks banks r false p).1 (compileBanks banks r true p).1 ∧
    (∀ s t q, compileSeed countries banks true p = (.ok (s, t), q) →
      ∃ s' t' q', compileSeed countries banks false p = (.ok (s', t'), q') ∧ s'.DropsFirst s ∧
        t'.DropsFirst t) ∧
    ∀ s t q e q', compileSeed countries banks false p = (.ok (s, t), q) →
      compileSeed countries banks true p = (.error e, q') →
      ∃ s' q'' j b u, compileCountries countries true p = (.ok s', q'') ∧
        Resolver.FirstForeign banks s'.identifiers j b u ∧ e.type = "DatasetError" ∧
        e = .ofProblem (.unresolved b.countryDiscriminator .foreignIdentifier) none (some j) := by
  refine ⟨compileCountries_reseed countries p, compileBanks_reseed banks r p,
    fun _ _ _ => compileSeed_of_reseed, fun s t q e q' h hReseed => ?_⟩
  obtain ⟨j, b, u, hForeign, rfl⟩ := foreign_of_reseed h hReseed
  obtain ⟨kept, found, hFresh, -, -, rfl, -, -⟩ := compileSeed_eq_ok_iff.mp h
  have hCountries := compileCountries_of_fresh ((p.fresh_add_iff _ _).mp hFresh).1 true
  exact ⟨_, _, j, b, u, hCountries, hForeign, rfl, rfl⟩

/-- One identifier in letters of both cases, of no country that is compiled. -/
def earlierBanks : List BankRecord :=
  [⟨"Alpha Bank", " gHANA"⟩, ⟨"Beta Bank", "3B0e6c1e-1f6A-4d8e-9a51-0E3c2f1d7a11"⟩]

def onlyCedi : List CountryRecord :=
  [⟨"Cedi", "GHS", "Cedi", "Ghana", ""⟩]

theorem ofCountries_onlyCedi (fullReseed : Bool) :
    Resolver.ofCountries onlyCedi [.ofNat 0] (!fullReseed) =
      .ok ⟨true, [.ofNat 0], .ofPairs [(nameKey "Ghana", .ofNat 0)], !fullReseed⟩ :=
  Resolver.ofCountries_of_length rfl

theorem fullReseed_drops_earlier :
    (∃ s t q, compileSeed onlyCedi earlierBanks false .counting = (.ok (s, t), q)) ∧
    ∃ e q s' q' b u, compileSeed onlyCedi earlierBanks true .counting = (.error e, q) ∧
      compileCountries onlyCedi true .counting = (.ok s', q') ∧
      Resolver.FirstForeign earlierBanks s'.identifiers 1 b u := by
  have hFresh : Progress.counting.Fresh (onlyCedi.length + earlierBanks.length) := by decide
  have hFound : Resolver.resolveAll ⟨true, [.ofNat 0], .ofPairs [(nameKey "Ghana", .ofNat 0)], true⟩
      (earlierBanks.map BankRecord.countryDiscriminator) =
        .ok [.ofNat 0, .ofNat 0x3b0e6c1e1f6a4d8e9a510e3c2f1d7a11] := by
    decide +kernel
  have hRefused : Resolver.resolveAll ⟨true, [.ofNat 0], .ofPairs [(nameKey "Ghana", .ofNat 0)], false⟩
      (earlierBanks.map BankRecord.countryDiscriminator) =
        .error (.ofProblem (.unresolved "3B0e6c1e-1f6A-4d8e-9a51-0E3c2f1d7a11" .foreignIdentifier) none
          (some 1)) := by
    decide +kernel
  have hOk : compileSeed onlyCedi earlierBanks false .counting = (.ok _, _) :=
    compileSeed_eq_ok_iff.mpr ⟨_, _, hFresh, ofCountries_onlyCedi false, hFound, rfl, rfl, rfl⟩
  have hError : compileSeed onlyCedi earlierBanks true .counting = (.error _, _) :=
    (compileSeed_eq_error_iff hFresh (ofCountries_onlyCedi true)).mpr ⟨hRefused, rfl⟩
  obtain ⟨s', q', j, b, u, hCountries, hForeign, -, he⟩ :=
    (fullReseed_drops onlyCedi earlierBanks {} .counting).2.2.2 _ _ _ _ _ hOk hError
  obtain ⟨-, rfl⟩ : "3B0e6c1e-1f6A-4d8e-9a51-0E3c2f1d7a11" = b.countryDiscriminator ∧ 1 = j := by
    simpa [Error.ofProblem] using he
  exact ⟨⟨_, _, _, hOk⟩, _, _, s', q', b, u, hError, hCountries, hForeign⟩

/-! ## Banks on their own -/

/-- The start of a run that leaves out the next `n` identifiers. -/
def Progress.skip (p : Progress) (n : Nat) : Progress :=
  { p with identifiers := p.identifiers.drop n }

theorem exists_parsed {ds : List String}
    (h : ∀ d ∈ ds, ∃ n, Identifier.Spells (Text.strip d).toList n) :
    ∃ found, List.Forall₂ (fun d i => Identifier.parse? d = some i) ds found := by
  induction ds with
  | nil => exact ⟨[], .nil⟩
  | cons d ds ih =>
    obtain ⟨⟨n, hFirst⟩, hRest⟩ := List.forall_mem_cons.mp h
    obtain ⟨found, hFound⟩ := ih hRest
    have hParse : Identifier.parse? d = some ⟨n, Identifier.lt_of_spells hFirst⟩ :=
      Identifier.parse?_eq_some_iff.mpr hFirst
    exact ⟨_, .cons hParse hFound⟩

/-- Canonical identifiers stand for themselves, whatever countries there are, so the banks of a run for both
tables are those of a run that starts with the identifiers which the countries have left. -/
theorem compileBanks_standalone {countries : List CountryRecord} {banks : List BankRecord} {p : Progress}
    (hDistinct : (p.draws (countries.length + banks.length)).Nodup)
    (hCanonical : ∀ b ∈ banks, ∃ n, Identifier.Spells (Text.strip b.countryDiscriminator).toList n) :
    ∃ s t q q', compileSeed countries banks false p.newBatch = (.ok (s, t), q) ∧
      compileBanks banks {} false (p.skip countries.length).newBatch = (.ok t, q') := by
  obtain ⟨found, hParse⟩ := exists_parsed (List.forall_mem_map.mpr hCanonical)
  obtain ⟨kept, hKept⟩ := exists_ofCountries countries p.newBatch (!false)
  have hWith : kept.resolveAll (banks.map BankRecord.countryDiscriminator) = .ok found := by
    refine Resolver.resolveAll_of_parse (fun i => ?_) hParse
    rw [Resolver.ofCountries_of_length (p.newBatch.length_draws countries.length).symm] at hKept
    cases hKept
    simp
  have hWithout : ({} : Resolver).resolveAll (banks.map BankRecord.countryDiscriminator) = .ok found :=
    Resolver.resolveAll_of_parse (fun _ => rfl) hParse
  have hBoth := (p.fresh_newBatch_iff _).mpr hDistinct
  have hBanks : (p.skip countries.length).newBatch.Fresh banks.length := by
    rw [Progress.fresh_newBatch_iff]
    rw [Progress.draws_add, List.nodup_append] at hDistinct
    exact hDistinct.2.1
  exact ⟨_, _, _, _, compileSeed_eq_ok_iff.mpr ⟨kept, found, hBoth, hKept, hWith, rfl, rfl, rfl⟩,
    compileBanks_of_resolved hWithout hBanks false⟩

/-- The first bank gives the identifier that the country of the same run is about to get. -/
def canonicalBanks : List BankRecord :=
  [⟨"Alpha Bank", "00000000-0000-0000-0000-000000000000"⟩,
    ⟨"Beta Bank", "\u30003B0e6c1e-1f6A-4d8e-9a51-0E3c2f1d7a11\n"⟩]

theorem compileBanks_standalone_canonical :
    ∃ s t q q', compileSeed onlyCedi canonicalBanks false Progress.counting.newBatch =
        (.ok (s, t), q) ∧
      compileBanks canonicalBanks {} false
        (Progress.counting.skip onlyCedi.length).newBatch = (.ok t, q') := by
  have hFirst : Identifier.parse? "00000000-0000-0000-0000-000000000000" = some (.ofNat 0) := by
    decide +kernel
  have hSecond : Identifier.parse? "\u30003B0e6c1e-1f6A-4d8e-9a51-0E3c2f1d7a11\n" =
      some (.ofNat 0x3b0e6c1e1f6a4d8e9a510e3c2f1d7a11) := by
    decide +kernel
  have hDistinct : (Progress.counting.draws (onlyCedi.length + canonicalBanks.length)).Nodup := by
    decide
  have hCanonical : ∀ b ∈ canonicalBanks,
      ∃ n, Identifier.Spells (Text.strip b.countryDiscriminator).toList n := by
    rw [canonicalBanks, List.forall_mem_cons, List.forall_mem_singleton]
    exact ⟨⟨_, Identifier.parse?_eq_some_iff.mp hFirst⟩, _, Identifier.parse?_eq_some_iff.mp hSecond⟩
  exact compileBanks_standalone hDistinct hCanonical

end SeedScript
