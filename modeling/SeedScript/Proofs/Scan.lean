import SeedScript.Proofs.Resolution

/-!
# Resolving is a scan

A resolver works on an index of names that it has made of its countries. What it finds can be said of the
countries alone: an identifier stands for itself where that is allowed, and a name for the identifier at
the first position whose country has its key. Main statement: that is what every resolver answers, one
discriminator at a time and for whole lists.
-/

namespace SeedScript.Resolver

/-- What a discriminator stands for among countries that have these identifiers. -/
inductive StandsFor (records : List CountryRecord) (ids : List Identifier) (keepPrior : Bool)
    (d : String) : Identifier → Prop
  | identifier {u : Identifier} : Identifier.parse? d = some u →
      records = [] ∨ u ∈ ids ∨ keepPrior = true → StandsFor records ids keepPrior d u
  | name {i : Nat} {u : Identifier} : Identifier.parse? d = none → records ≠ [] →
      FirstNamed records d i → ids[i]? = some u → StandsFor records ids keepPrior d u

variable {records : List CountryRecord} {ids : List Identifier} {keepPrior : Bool} {r : Resolver}

/-- Nothing but two lists of different lengths keeps a resolver from being made. -/
theorem ofCountries_eq_error_iff {e : Error} :
    ofCountries records ids keepPrior = .error e ↔
      records.length ≠ ids.length ∧ e = .countMismatch records.length ids.length := by
  rw [ofCountries]
  split <;> simp_all [eq_comm]

theorem find_identifier_iff (hr : ofCountries records ids keepPrior = .ok r) {d : String}
    {i u : Identifier} (hParse : Identifier.parse? d = some i) :
    r.find d = .ok u ↔ i = u ∧ (records = [] ∨ i ∈ ids ∨ keepPrior = true) := by
  rw [ofCountries] at hr
  split at hr
  · cases hr
    have hTest : (!(!records.isEmpty) || keepPrior || ids.contains i) = true ↔
        records = [] ∨ i ∈ ids ∨ keepPrior = true := by
      simp [or_assoc, or_comm (a := i ∈ ids)]
    rw [find_eq_of_parse hParse, ← hTest]
    split
    · next h =>
      constructor
      · intro hOk
        cases hOk
        exact ⟨rfl, h⟩
      · rintro ⟨rfl, -⟩
        rfl
    · next h =>
      constructor
      · intro hOk
        cases hOk
      · rintro ⟨-, hKept⟩
        exact absurd hKept h
  · cases hr

theorem find_eq_ok_iff (hr : ofCountries records ids keepPrior = .ok r) {d : String}
    {u : Identifier} : r.find d = .ok u ↔ StandsFor records ids keepPrior d u := by
  cases hParse : Identifier.parse? d with
  | some i =>
    rw [find_identifier_iff hr hParse]
    constructor
    · rintro ⟨rfl, hKept⟩
      exact .identifier hParse hKept
    · intro h
      cases h with
      | identifier hu hKept =>
        rw [hParse] at hu
        cases hu
        exact ⟨rfl, hKept⟩
      | name hNone => cases hParse.symm.trans hNone
  | none =>
    rw [find_name_iff hr hParse]
    constructor
    · rintro ⟨i, hNamed, hu⟩
      obtain ⟨c, hc, -⟩ := hNamed.1
      have hne : records ≠ [] := by
        rintro rfl
        cases hc
      exact .name hParse hne hNamed hu
    · intro h
      cases h with
      | identifier hu => cases hParse.symm.trans hu
      | name _ _ hNamed hu => exact ⟨_, hNamed, hu⟩

theorem refused_iff (hr : ofCountries records ids keepPrior = .ok r) {d : String} :
    (∀ u, ¬ StandsFor records ids keepPrior d u) ↔ ∃ why, r.find d = .error why := by
  simp only [← find_eq_ok_iff hr]
  cases r.find d <;> simp

/-- What a resolver answers, said of the lists that it is made of. Every refusal is a failure to compile
with the index that was given. -/
structure Scans (records : List CountryRecord) (ids : List Identifier) (keepPrior : Bool)
    (r : Resolver) : Prop where
  resolve_ok : ∀ d index u,
    r.resolve d index = .ok u ↔ StandsFor records ids keepPrior d u
  resolve_error : ∀ d index, (∀ u, ¬ StandsFor records ids keepPrior d u) ↔
    ∃ f, r.resolve d index = .error (.failure f) ∧ f.problem.type = "DatasetError" ∧
      f.stage = .compile ∧ f.index = index
  resolveAll_ok : ∀ ds us,
    r.resolveAll ds = .ok us ↔ List.Forall₂ (StandsFor records ids keepPrior) ds us
  resolveAll_error : ∀ ds e, r.resolveAll ds = .error e ↔
    ∃ (j : Nat) (d : String), ds[j]? = some d ∧ (∀ u, ¬ StandsFor records ids keepPrior d u) ∧
      r.resolve d (some j) = .error e ∧
      ∀ i < j, ∀ d', ds[i]? = some d' → ∃ u, StandsFor records ids keepPrior d' u

theorem scans_ofCountries (hr : ofCountries records ids keepPrior = .ok r) :
    r.Scans records ids keepPrior where
  resolve_ok d index u := by rw [resolve_eq_ok_iff, find_eq_ok_iff hr]
  resolve_error d index := by
    rw [refused_iff hr]
    constructor
    · rintro ⟨why, hFind⟩
      exact ⟨_, resolve_of_find_error hFind, rfl, rfl, rfl⟩
    · rintro ⟨f, hResolve, -⟩
      obtain ⟨why, hFind, -⟩ := resolve_eq_error_iff.mp hResolve
      exact ⟨why, hFind⟩
  resolveAll_ok ds us := by
    simp only [resolveAll, resolveFrom_eq_ok_iff, find_eq_ok_iff hr]
  resolveAll_error ds e := by
    simp only [resolveAll_eq_error_iff, resolve_eq_ok_iff, find_eq_ok_iff hr, refused_iff hr]
    constructor
    · rintro ⟨j, d, hj, hResolve, hBefore⟩
      obtain ⟨why, hFind, -⟩ := resolve_eq_error_iff.mp hResolve
      exact ⟨j, d, hj, ⟨why, hFind⟩, hResolve, hBefore⟩
    · rintro ⟨j, d, hj, -, hResolve, hBefore⟩
      exact ⟨j, d, hj, hResolve, hBefore⟩

/-- Lists of one length, and only these, make a resolver, and it answers what a scan of them finds. -/
theorem ofCountries_scans (records : List CountryRecord) (ids : List Identifier) (keepPrior : Bool) :
    ((∃ e, ofCountries records ids keepPrior = .error e) ↔ records.length ≠ ids.length) ∧
      (∀ e, ofCountries records ids keepPrior = .error e → e.type = "ValueError") ∧
      ∀ r, ofCountries records ids keepPrior = .ok r → r.Scans records ids keepPrior := by
  refine ⟨?_, ?_, fun r => scans_ofCountries⟩
  · simp [ofCountries_eq_error_iff]
  · intro e he
    obtain ⟨-, rfl⟩ := ofCountries_eq_error_iff.mp he
    rfl

/-- Two spellings of one name, and a blank name. -/
def spellings : List CountryRecord :=
  [⟨"Cedi", "GHS", "Cedi", "Ghana", ""⟩, ⟨"Cedi", "GHS", "Cedi", " gHANA", ""⟩,
    ⟨"Gold", "XAU", "Gold", "\t", ""⟩]

theorem ofCountries_scans_spellings :
    ∃ r, ofCountries spellings [.ofNat 1, .ofNat 2, .ofNat 2] false = .ok r ∧
      List.Forall₂ (StandsFor spellings [.ofNat 1, .ofNat 2, .ofNat 2] false)
        ["GHANA\n", "", "00000000-0000-0000-0000-000000000002"] [.ofNat 1, .ofNat 2, .ofNat 2] ∧
      ∀ u, ¬ StandsFor spellings [.ofNat 1, .ofNat 2, .ofNat 2] false
        "00000000-0000-0000-0000-000000000003" u := by
  have hr : ofCountries spellings [.ofNat 1, .ofNat 2, .ofNat 2] false =
      .ok ⟨true, [.ofNat 1, .ofNat 2, .ofNat 2], .ofPairs [(nameKey "Ghana", .ofNat 1),
        (nameKey " gHANA", .ofNat 2), (nameKey "\t", .ofNat 2)], false⟩ :=
    ofCountries_of_length rfl
  have hScans := (ofCountries_scans spellings [.ofNat 1, .ofNat 2, .ofNat 2] false).2.2 _ hr
  refine ⟨_, hr, (hScans.resolveAll_ok _ _).mp ?_, (hScans.resolve_error _ none).mpr ?_⟩
  · decide +kernel
  · exact ⟨⟨.unresolved "00000000-0000-0000-0000-000000000003" .foreignIdentifier, none, none⟩,
      by decide +kernel, rfl, rfl, rfl⟩

end SeedScript.Resolver
