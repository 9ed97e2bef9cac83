import SeedScript.Proofs.EntryForms
import SeedScript.Proofs.Records

/-!
# Entries one by one

A dataset is read entry by entry, and the first entry that makes no record stops it. Main statement: a
dataset of countries is loaded exactly if each of its entries is an object with fields that are valid, and
then each record is made of its own entry alone. Otherwise the first other entry is reported.
-/

namespace SeedScript

namespace Dataset

open Record (Reads Reports)

/-! ## The first entry that fails -/

section

variable {α β : Type} {f : Nat → α → Except Problem β} {index n : Nat} {xs : List α} {ys : List β}
  {problem : Problem}

/-- The results for items from position `index` on, or else the first problem and its position. -/
def collectFrom (f : Nat → α → Except Problem β) (index : Nat) :
    List α → Except (Nat × Problem) (List β)
  | [] => .ok []
  | x :: xs =>
    match f index x with
    | .error problem => .error (index, problem)
    | .ok y => (collectFrom f (index + 1) xs).map (y :: ·)

theorem each_of_collectFrom (h : collectFrom f index xs = .ok ys) : ys.length = xs.length ∧
    ∀ i x, xs[i]? = some x → ∃ y, ys[i]? = some y ∧ f (index + i) x = .ok y := by
  induction xs generalizing index ys with
  | nil =>
    cases h
    exact ⟨rfl, nofun⟩
  | cons x xs ih =>
    cases hFirst : f index x with
    | error problem =>
      rw [collectFrom, hFirst] at h
      cases h
    | ok y =>
      simp only [collectFrom, hFirst] at h
      obtain ⟨rest, hRest, rfl⟩ := Except.map_eq_ok_iff.mp h
      obtain ⟨hLength, hEach⟩ := ih hRest
      refine ⟨by rw [List.length_cons, List.length_cons, hLength], fun i found hFound => ?_⟩
      cases i with
      | zero =>
        cases hFound
        exact ⟨y, rfl, hFirst⟩
      | succ i =>
        have hIndex : index + (i + 1) = index + 1 + i := by omega
        rw [hIndex]
        exact hEach i found hFound

theorem first_of_collectFrom (h : collectFrom f index xs = .error (n, problem)) :
    ∃ i x, n = index + i ∧ xs[i]? = some x ∧ f n x = .error problem ∧
      ∀ j < i, ∀ earlier, xs[j]? = some earlier → ∃ y, f (index + j) earlier = .ok y := by
  induction xs generalizing index with
  | nil => cases h
  | cons x xs ih =>
    cases hFirst : f index x with
    | error found =>
      rw [collectFrom, hFirst] at h
      cases h
      exact ⟨0, x, rfl, rfl, hFirst, nofun⟩
    | ok y =>
      simp only [collectFrom, hFirst] at h
      obtain ⟨i, bad, rfl, hBad, hError, hBefore⟩ := ih (Except.map_eq_error_iff.mp h)
      refine ⟨i + 1, bad, by omega, hBad, hError, fun j hj earlier hEarlier => ?_⟩
      cases j with
      | zero =>
        cases hEarlier
        exact ⟨y, hFirst⟩
      | succ j =>
        have hIndex : index + (j + 1) = index + 1 + j := by omega
        rw [hIndex]
        exact hBefore j (by omega) earlier hEarlier

end

section

variable {β : Type} {makes : Nat → Json → β → Prop} {refuses : Nat → Json → Problem → Prop}
  {f : Nat → Json → Except Problem β} {path : String} {entries : List Json} {r : Except Error (List β)}

/-- Every entry makes the record in its place. -/
def EachMakes (entries : List Json) (makes : Nat → Json → β → Prop) (records : List β) : Prop :=
  records.length = entries.length ∧ ∀ (i : Nat) (entry : Json), entries[i]? = some entry →
    ∃ record, records[i]? = some record ∧ makes i entry record

/-- The failure of a dataset is that of its first entry that makes no record. -/
inductive FirstRefused (path : String) (entries : List Json) (makes : Nat → Json → β → Prop)
    (refuses : Nat → Json → Problem → Prop) : Error → Prop
  | intro {i : Nat} {entry : Json} {f : Failure} : entries[i]? = some entry →
      (¬ ∃ record, makes i entry record) →
      (∀ j < i, ∀ earlier, entries[j]? = some earlier → ∃ record, makes j earlier record) →
      refuses i entry f.problem → f.problem.type = "DatasetError" → f.stage = .load →
      f.path = some path → f.index = some i → FirstRefused path entries makes refuses (.failure f)

/-- A dataset whose entries make records one by one is loaded if all of them do. -/
structure Pointwise (path : String) (entries : List Json) (makes : Nat → Json → β → Prop)
    (refuses : Nat → Json → Problem → Prop) (r : Except Error (List β)) : Prop where
  ok_iff : (∃ records, r = .ok records) ↔
    ∀ (i : Nat) (entry : Json), entries[i]? = some entry → ∃ record, makes i entry record
  each : ∀ records, r = .ok records → EachMakes entries makes records
  first : ∀ e, r = .error e → FirstRefused path entries makes refuses e

theorem pointwise_of (hEach : ∀ records, r = .ok records → EachMakes entries makes records)
    (hFirst : ∀ e, r = .error e → FirstRefused path entries makes refuses e) :
    Pointwise path entries makes refuses r := by
  refine ⟨?_, hEach, hFirst⟩
  constructor
  · rintro ⟨records, hOk⟩ i entry hEntry
    obtain ⟨record, -, hMakes⟩ := (hEach records hOk).2 i entry hEntry
    exact ⟨record, hMakes⟩
  · intro hAll
    cases r with
    | ok records => exact ⟨records, rfl⟩
    | error e =>
      obtain ⟨hEntry, hNot, -⟩ := hFirst e rfl
      exact absurd (hAll _ _ hEntry) hNot

theorem pointwise_collectFrom (path : String) (entries : List Json)
    (hMakes : ∀ i entry record, f i entry = .ok record ↔ makes i entry record)
    (hRefuses : ∀ i entry problem, f i entry = .error problem → refuses i entry problem)
    (hStage : ∀ i entry problem, f i entry = .error problem → problem.stage = .load) :
    Pointwise path entries makes refuses (atEntry path (collectFrom f 0 entries)) := by
  apply pointwise_of
  · intro records hOk
    obtain ⟨hLength, hEach⟩ := each_of_collectFrom (Except.mapError_eq_ok_iff.mp hOk)
    refine ⟨hLength, fun i entry hEntry => ?_⟩
    obtain ⟨record, hRecord, hMade⟩ := hEach i entry hEntry
    rw [Nat.zero_add, hMakes] at hMade
    exact ⟨record, hRecord, hMade⟩
  · intro e hError
    obtain ⟨⟨n, problem⟩, hCollect, rfl⟩ := Except.mapError_eq_error_iff.mp hError
    obtain ⟨i, entry, hn, hEntry, hBad, hBefore⟩ := first_of_collectFrom hCollect
    rw [Nat.zero_add] at hn
    cases hn
    have hLoad := hStage n entry problem hBad
    refine .intro (f := ⟨problem, path, n⟩) hEntry ?_ ?_ (hRefuses n entry problem hBad)
      (Problem.type_of_load hLoad) hLoad rfl rfl
    · rintro ⟨record, hMade⟩
      cases hBad.symm.trans ((hMakes n entry record).mpr hMade)
    · intro j hj earlier hEarlier
      obtain ⟨record, hRecord⟩ := hBefore j hj earlier hEarlier
      rw [Nat.zero_add, hMakes] at hRecord
      exact ⟨record, hRecord⟩

end

/-! ## Countries -/

/-- An entry makes a country if it is an object, and the texts of the country fit what it offers. -/
inductive MakesCountry : Json → CountryRecord → Prop
  | intro {members : Json.Members} {c : CountryRecord} :
      Reads (CountryRecord.offers members) (c.fields.map Prod.snd) → MakesCountry (.object members) c

inductive RefusesCountry : Json → Problem → Prop
  | unfit {members : Json.Members} {found : List Validation.Problem} :
      Reports (CountryRecord.offers members) found →
      RefusesCountry (.object members) (.invalidCountry found)
  | noObject {entry : Json} : entry.kind ≠ .object → RefusesCountry entry (.countryNotObject entry.kind)

variable {entry : Json} {c : CountryRecord} {problem : Problem}

theorem country_eq_ok_iff : country entry = .ok c ↔ MakesCountry entry c := by
  constructor
  · intro h
    cases entry with
    | object members => exact .intro (CountryRecord.ofMembers_eq_ok_iff.mp (Except.mapError_eq_ok_iff.mp h))
    | _ => cases h
  · rintro ⟨hReads⟩
    exact Except.mapError_eq_ok_iff.mpr (CountryRecord.ofMembers_eq_ok_iff.mpr hReads)

theorem refusesCountry_of_error (h : country entry = .error problem) : RefusesCountry entry problem := by
  cases entry with
  | object members =>
    obtain ⟨found, hFound, rfl⟩ := Except.mapError_eq_error_iff.mp h
    exact .unfit (CountryRecord.ofMembers_eq_error_iff.mp hFound)
  | _ =>
    cases h
    exact .noObject (by simp [Json.kind])

theorem countriesFrom_eq (index : Nat) (entries : List Json) :
    countriesFrom index entries = collectFrom (fun _ => country) index entries := by
  induction entries generalizing index with
  | nil => rfl
  | cons entry entries ih =>
    rw [countriesFrom, collectFrom, ih]
    cases country entry <;> rfl

open RunStep

variable {tree : Files.Tree} {path : String} {entries : List Json}

theorem loadCountries_eq (h : readJson tree path = .ok (.array entries)) (p : Progress) :
    (loadCountries tree path p).1 = atEntry path (countriesFrom 0 entries) := by
  rw [loadCountries, h, bind_of_ok (ofResult_apply _ _)]
  dsimp only
  cases hRecords : atEntry path (countriesFrom 0 entries) with
  | error e => rw [bind_of_error (ofResult_apply _ _)]
  | ok records =>
    rw [bind_of_ok (ofResult_apply _ _)]
    rfl

/-- Each record is made of its own entry. What counts there is the values under the known keys, and neither
other members nor, where no key stands twice, the order of members. -/
theorem loadCountries_pointwise (hRead : readJson tree path = .ok (.array entries)) (p : Progress) :
    Pointwise path entries (fun _ => MakesCountry) (fun _ => RefusesCountry)
      (loadCountries tree path p).1 ∧
    (∀ entry c c', MakesCountry entry c → MakesCountry entry c' → c = c') ∧
    (∀ members others : Json.Members,
      (∀ k ∈ CountryRecord.keys, others.get? k = members.get? k) →
      country (.object others) = country (.object members)) ∧
    ∀ members others : Json.Members, (members.map Prod.fst).Nodup → members.Perm others →
      country (.object others) = country (.object members) := by
  have hSame : ∀ members others : Json.Members,
      (∀ k ∈ CountryRecord.keys, others.get? k = members.get? k) →
      country (.object others) = country (.object members) := by
    intro members others hKeys
    rw [country, country, CountryRecord.ofMembers_congr hKeys]
  refine ⟨?_, ?_, hSame, ?_⟩
  · rw [loadCountries_eq hRead, countriesFrom_eq]
    apply pointwise_collectFrom
    · exact fun _ _ _ => country_eq_ok_iff
    · exact fun _ _ _ => refusesCountry_of_error
    · exact fun _ _ _ => stage_of_country
  · intro entry c c' hFirst hSecond
    exact Except.ok.inj ((country_eq_ok_iff.mpr hFirst).symm.trans (country_eq_ok_iff.mpr hSecond))
  · intro members others hNodup hPerm
    exact hSame members others fun k _ => Json.Members.get?_of_perm hPerm hNodup k

/-- The null under `flag` is the empty flag, and the member `iso` does not count. -/
def aliased : Json :=
  .object [(some "country", .string (some "Ghana")), (some "flag", .null), (some "iso", .boolean true),
    (some "currencyCode", .string (some "GHS")), (some "name", .string (some "Cedi"))]

/-- The first key of a field shadows the later ones, even where its value does not fit. -/
def shadowed : Json :=
  .object [(some "code", .string (some "XOF")), (some "currency_code", .string (some "")),
    (some "country", .string (some "Togo")), (some "countryName", .null)]

def shadowedFile : Files.Tree :=
  Job.onlyFile (Text.Utf8.encode ((Json.array [aliased, shadowed]).indented ++ "\n"))

theorem readJson_shadowedFile : readJson shadowedFile "c.json" = .ok (.array [aliased, shadowed]) := by
  have hFile : ∀ bytes, (Job.onlyFile bytes).read? (.ofText "c.json") = some bytes := fun _ => rfl
  refine readJson_print (.array ?_) (hFile _)
  rw [List.forall_mem_cons, List.forall_mem_singleton]
  constructor
  · refine .object ?_ ?_ <;> simp [Json.PlainIn.string, Json.PlainIn.null, Json.PlainIn.boolean]
  · refine .object ?_ ?_ <;> simp [Json.PlainIn.string, Json.PlainIn.null]

/-- Without a name there is no currency name either. -/
theorem loadCountries_pointwise_shadowed :
    Pointwise "c.json" [aliased, shadowed] (fun _ => MakesCountry) (fun _ => RefusesCountry)
      (loadCountries shadowedFile "c.json" .counting).1 ∧
    MakesCountry aliased ⟨"Cedi", "GHS", "Cedi", "Ghana", ""⟩ ∧
    RefusesCountry shadowed (.invalidCountry [⟨["name"], .missing⟩, ⟨["currency_code"], .tooShort⟩,
      ⟨["currency_name"], .notText⟩, ⟨["countryName"], .notText⟩]) := by
  refine ⟨(loadCountries_pointwise readJson_shadowedFile .counting).1, ?_, ?_⟩
  · exact country_eq_ok_iff.mp rfl
  · exact refusesCountry_of_error rfl

end Dataset
end SeedScript
