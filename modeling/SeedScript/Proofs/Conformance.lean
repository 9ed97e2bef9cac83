import SeedScript.Proofs.Export
import SeedScript.Proofs.Linking
import SeedScript.Proofs.Sql.Decoding

/-!
# Cells and columns

A table declares what its columns hold, and the rows of an INSERT statement are made elsewhere. Every
tuple of a compiled set keeps the types of its columns and has no NULL where none is allowed. Nothing
looks at the length limits: the tuples of countries keep them exactly when the records do, and those of
banks have none to keep.
-/

namespace SeedScript

namespace Sql

/-- A value of a tuple, which can be a literal or the word NULL in any letter case. -/
inductive IsValue : List Char → Option String → Prop
  | null {cs : List Char} : cs.map Char.toUpper = "NULL".toList → IsValue cs none
  | literal {cs : List Char} {text : String} : IsLiteral cs text → IsValue cs (some text)

theorem isAlpha_of_isAlpha_toUpper {c : Char} (h : c.toUpper.isAlpha = true) : c.isAlpha = true := by
  by_cases hLower : 'a' ≤ c ∧ c ≤ 'z'
  · exact (Reader.isAlpha_iff c).mpr (.inr hLower)
  · have hSame : c.toUpper = c := dif_neg hLower
    rwa [hSame] at h

namespace Reader

def value : Reader (Option String) := fun cs =>
  match keyword "NULL" cs with
  | some rest => some (none, rest)
  | none => (literal cs).map fun r => (some r.1, r.2)

theorem isAlpha_of_follows {rest : List Char} (h : Follows rest) {c : Char}
    (hc : rest.head? = some c) : c.isAlpha = false := by
  by_contra hAlpha
  rw [Bool.not_eq_false] at hAlpha
  rcases h c hc with h | rfl | rfl
  · rw [isSpace_of_isAlpha hAlpha] at h
    cases h
  · cases hAlpha
  · cases hAlpha

theorem keyword_null {cs blanks rest : List Char} (h : cs.map Char.toUpper = "NULL".toList)
    (hBlanks : blanks.all isSpace = true) (hRest : Follows rest) :
    keyword "NULL" (blanks ++ (cs ++ rest)) = some rest := by
  have hAlpha : ∀ c ∈ cs, c.isAlpha = true := by
    intro c hc
    have hUpper : c.toUpper ∈ "NULL".toList := h ▸ List.mem_map_of_mem hc
    have hAll : ['N', 'U', 'L', 'L'].all Char.isAlpha = true := rfl
    exact isAlpha_of_isAlpha_toUpper (List.all_eq_true.mp hAll _ hUpper)
  have hne : cs ≠ [] := by
    rintro rfl
    cases h
  rw [keyword_append "NULL" hne hAlpha hBlanks fun _ => isAlpha_of_follows hRest, if_pos h]

theorem finds_value : Finds value IsValue := by
  intro cs v blanks rest h hBlanks hRest
  cases h with
  | null hNull => rw [value, keyword_null hNull hBlanks hRest]
  | literal hLiteral =>
    have hFound := finds_literal hLiteral hBlanks hRest
    obtain ⟨body, -, rfl⟩ := hLiteral
    have hWord : keyword "NULL" (blanks ++ ('\'' :: (body ++ ['\'']) ++ rest)) = none := by
      rw [List.cons_append]
      simp only [keyword, dropWhile_space_append hBlanks (c := '\'') (by decide)]
      rfl
    rw [value, hWord, hFound]
    rfl

end Reader

theorem isTuples_value {cs : List Char} {rows : List (List String)} (h : IsTuples IsLiteral cs rows) :
    IsTuples IsValue cs (rows.map (List.map some)) := by
  refine h.map fun hRow => ?_
  cases hRow with
  | intro hBefore hAfter hListed => exact .intro hBefore hAfter (hListed.map .literal)

end Sql

namespace Schema

/-- A value has the type of its column, and is NULL only where the column allows it. -/
structure Column.Admits (c : Column) (value : Option String) : Prop where
  uuid : c.type = .uuid → ∃ i : Identifier, value = some i.text
  present : c.nullable = false → value ≠ none

/-- A value is within the length limit of its column, if there is one. -/
def Column.Bounds (c : Column) (value : Option String) : Prop :=
  c.type = .string → ∀ n, c.maxLength = some n → ∀ text, value = some text → text.length ≤ n

/-- A tuple has one value for each inserted column of a table, and each is as its column asks for. -/
def Table.Each (t : Table) (P : Column → Option String → Prop) (values : List (Option String)) : Prop :=
  List.Forall₂ (fun name value => ∃ c, t.columns.find? (·.name = name) = some c ∧ P c value)
    t.insertColumns values

theorem Column.admits_identifier (c : Column) (i : Identifier) : c.Admits (some i.text) :=
  ⟨fun _ => ⟨i, rfl⟩, fun _ => nofun⟩

theorem Column.admits_text {c : Column} (h : c.type ≠ .uuid) (text : String) : c.Admits (some text) :=
  ⟨fun hType => absurd hType h, fun _ => nofun⟩

theorem Column.bounds_iff {c : Column} {n : Nat} (hType : c.type = .string)
    (hLimit : c.maxLength = some n) (text : String) : c.Bounds (some text) ↔ text.length ≤ n := by
  constructor
  · intro h
    exact Int.ofNat_le.mp (h hType n hLimit text rfl)
  · intro h _ m hm other hOther
    cases hLimit.symm.trans hm
    cases hOther
    exact Int.ofNat_le.mpr h

theorem Column.bounds_of_none {c : Column} (h : c.maxLength = none) (value : Option String) :
    c.Bounds value := by
  intro _ n hn
  cases h.symm.trans hn

/-- The columns that a table inserts, in the order of their values. -/
def Table.HasInserted (t : Table) (columns : List Column) : Prop :=
  List.Forall₂ (fun name c => t.columns.find? (·.name = name) = some c) t.insertColumns columns

theorem Table.HasInserted.each_iff {t : Table} {columns : List Column} (h : t.HasInserted columns)
    {P : Column → Option String → Prop} {values : List (Option String)} :
    t.Each P values ↔ List.Forall₂ P columns values := by
  unfold HasInserted at h
  unfold Each
  generalize t.insertColumns = names at h ⊢
  induction h generalizing values with
  | nil => simp only [List.forall₂_nil_left_iff]
  | cons hFound _ ih => simp [List.forall₂_cons_left_iff, hFound, ih]

theorem hasInserted_countries : countries.HasInserted [
    ⟨"identifier", .uuid, true, none, none, true, none, ""⟩,
    ⟨"currency_code", .string, false, some 10, none, false, none, ""⟩,
    ⟨"currency", .string, false, some 100, none, false, none, ""⟩,
    ⟨"country", .string, false, some 100, none, false, none, ""⟩,
    ⟨"flag", .text, true, none, none, false, none, ""⟩] :=
  .cons rfl (.cons rfl (.cons rfl (.cons rfl (.cons rfl .nil))))

theorem hasInserted_banks : banks.HasInserted [
    ⟨"identifier", .uuid, true, none, none, true, none, ""⟩,
    ⟨"bank_name", .string, false, none, none, false, none, ""⟩,
    ⟨"country_identifier", .uuid, false, none, none, false,
      some ⟨"countries", "identifier", some "CASCADE", some "CASCADE"⟩, ""⟩] :=
  .cons rfl (.cons rfl (.cons rfl .nil))

end Schema

namespace StatementSet

open Sql

/-- What the INSERT statement of a set says behind its header; without a statement it is nothing. -/
inductive Inserts (s : StatementSet) (columns : List String) : List (List (Option String)) → Prop
  | nothing : s.insert = none → Inserts s columns []
  | tuples {body : String} {tuples : List (List (Option String))} :
      s.insert = some (insertHeader s.table columns ++ body) → IsTuples IsValue body.toList tuples →
      Inserts s columns tuples

theorem Inserts.unique {s : StatementSet} {columns : List String}
    {tuples others : List (List (Option String))} (h : s.Inserts columns tuples)
    (h' : s.Inserts columns others) : others = tuples := by
  cases h with
  | nothing hNone =>
    cases h' with
    | nothing => rfl
    | tuples hSome => cases hNone.symm.trans hSome
  | tuples hSome hTuples =>
    cases h' with
    | nothing hNone => cases hNone.symm.trans hSome
    | tuples hSome' hOthers =>
      have hText := Option.some.inj (hSome.symm.trans hSome')
      cases (String.append_right_inj _).mp hText
      exact Listed.unique (Reader.finds_enclosed Reader.finds_value) hOthers hTuples

/-- Each value that the set inserts is as its column in the registered table asks for. -/
def Every (s : StatementSet) (P : Schema.Column → Option String → Prop) : Prop :=
  ∃ t tuples, Schema.seeded.get s.table = .ok t ∧ s.Inserts t.insertColumns tuples ∧
    tuples.length = s.rowCount ∧ ∀ values ∈ tuples, t.Each P values

theorem inserts_seedSet (t : Schema.Table) (fullReseed : Bool) {rows : List (List String)}
    (hRows : ∀ row ∈ rows, row ≠ []) (ids : List Identifier) :
    (t.seedSet fullReseed rows ids).Inserts t.insertColumns (rows.map (List.map some)) := by
  cases rows with
  | nil => exact .nothing rfl
  | cons row rows => exact .tuples rfl (isTuples_value (isTuples_join (List.cons_ne_nil _ _) hRows))

theorem every_seedSet_iff {t : Schema.Table} (hGet : Schema.seeded.get t.name = .ok t)
    {fullReseed : Bool} {rows : List (List String)} (hRows : ∀ row ∈ rows, row ≠ [])
    {ids : List Identifier} (hIds : rows.length = ids.length)
    {P : Schema.Column → Option String → Prop} :
    (t.seedSet fullReseed rows ids).Every P ↔ ∀ row ∈ rows, t.Each P (row.map some) := by
  have hInserts := inserts_seedSet t fullReseed hRows ids
  constructor
  · rintro ⟨t', tuples, hGet', hTuples, -, hEach⟩
    cases hGet.symm.trans hGet'
    rw [hInserts.unique hTuples, List.forall_mem_map] at hEach
    exact hEach
  · intro hEach
    exact ⟨t, _, hGet, hInserts, by rw [List.length_map, hIds]; rfl, List.forall_mem_map.mpr hEach⟩

end StatementSet

open Schema (Column)

/-- The texts of a country are within the length limits of the columns that they go to. -/
structure CountryRecord.Fits (c : CountryRecord) : Prop where
  code : c.currencyCode.length ≤ 10
  currency : c.currencyName.length ≤ 100
  country : c.countryName.length ≤ 100

theorem each_admits_country (c : CountryRecord) (i : Identifier) :
    Schema.countries.Each Column.Admits ((c.texts i).map some) := by
  rw [Schema.hasInserted_countries.each_iff]
  refine .cons (Column.admits_identifier _ i) (.cons ?_ (.cons ?_ (.cons ?_ (.cons ?_ .nil))))
  all_goals exact Column.admits_text (by decide) _

theorem each_bounds_country_iff (c : CountryRecord) (i : Identifier) :
    Schema.countries.Each Column.Bounds ((c.texts i).map some) ↔ c.Fits := by
  rw [Schema.hasInserted_countries.each_iff]
  constructor
  · rintro (_ | ⟨-, _ | ⟨hCode, _ | ⟨hCurrency, _ | ⟨hCountry, -⟩⟩⟩⟩)
    exact ⟨(Column.bounds_iff rfl rfl _).mp hCode, (Column.bounds_iff rfl rfl _).mp hCurrency,
      (Column.bounds_iff rfl rfl _).mp hCountry⟩
  · intro h
    exact .cons (Column.bounds_of_none rfl _) (.cons ((Column.bounds_iff rfl rfl _).mpr h.code)
      (.cons ((Column.bounds_iff rfl rfl _).mpr h.currency)
        (.cons ((Column.bounds_iff rfl rfl _).mpr h.country)
          (.cons (Column.bounds_of_none rfl _) .nil))))

theorem each_admits_bank (b : BankRecord) (i country : Identifier) :
    Schema.banks.Each Column.Admits ((b.texts i country).map some) := by
  rw [Schema.hasInserted_banks.each_iff]
  exact .cons (Column.admits_identifier _ i) (.cons (Column.admits_text (by decide) _)
    (.cons (Column.admits_identifier _ country) .nil))

/-- No column of a bank has a length limit. -/
theorem each_bounds_bank (b : BankRecord) (i country : Identifier) :
    Schema.banks.Each Column.Bounds ((b.texts i country).map some) := by
  rw [Schema.hasInserted_banks.each_iff]
  exact .cons (Column.bounds_of_none rfl _) (.cons (Column.bounds_of_none rfl _)
    (.cons (Column.bounds_of_none rfl _) .nil))

theorem every_countrySet_iff {P : Column → Option String → Prop} {Q : CountryRecord → Prop}
    (hEach : ∀ c i, Schema.countries.Each P ((CountryRecord.texts c i).map some) ↔ Q c)
    {records : List CountryRecord} {ids : List Identifier} (hIds : ids.length = records.length)
    (fullReseed : Bool) : (countrySet records fullReseed ids).Every P ↔ ∀ c ∈ records, Q c := by
  have hLength := (length_countryRows hIds).trans hIds.symm
  rw [countrySet, StatementSet.every_seedSet_iff rfl (fun _ => ne_nil_of_mem_countryRows) hLength]
  constructor
  · intro h c hc
    obtain ⟨j, hj⟩ := List.mem_iff_getElem?.mp hc
    have hLt : j < ids.length := hIds ▸ (List.getElem?_eq_some_iff.mp hj).1
    have hRow := getElem?_countryRows hj (List.getElem?_eq_getElem hLt)
    exact (hEach c ids[j]).mp (h _ (List.mem_of_getElem? hRow))
  · intro h row hRow
    obtain ⟨j, hj⟩ := List.mem_iff_getElem?.mp hRow
    obtain ⟨c, i, hc, -, rfl⟩ := List.getElem?_zipWith_eq_some.mp hj
    exact (hEach c i).mpr (h c (List.mem_of_getElem? hc))

theorem every_bankSet {P : Column → Option String → Prop}
    (hEach : ∀ b i country, Schema.banks.Each P ((BankRecord.texts b i country).map some))
    {records : List BankRecord} {ids countries : List Identifier}
    (hIds : ids.length = records.length) (hCountries : countries.length = records.length)
    (fullReseed : Bool) : (bankSet records fullReseed ids countries).Every P := by
  have hLength := (length_bankRows hIds hCountries).trans hIds.symm
  rw [bankSet, StatementSet.every_seedSet_iff rfl (fun _ => ne_nil_of_mem_bankRows) hLength]
  intro row hRow
  obtain ⟨b, ⟨i, country⟩, rfl⟩ := exists_of_mem_zipWith hRow
  exact hEach b i country

/-- A set of countries keeps the types of its columns, and their length limits if its records do. -/
structure ConformsTo (records : List CountryRecord) (s : StatementSet) : Prop where
  admits : s.Every Column.Admits
  bounds : s.Every Column.Bounds ↔ ∀ c ∈ records, c.Fits

theorem conformsTo_countrySet {records : List CountryRecord} {ids : List Identifier}
    (hIds : ids.length = records.length) (fullReseed : Bool) :
    ConformsTo records (countrySet records fullReseed ids) where
  admits := by
    have hEach : ∀ c i, Schema.countries.Each Column.Admits ((CountryRecord.texts c i).map some) ↔ True :=
      fun c i => iff_true_intro (each_admits_country c i)
    exact (every_countrySet_iff hEach hIds fullReseed).mpr fun _ _ => trivial
  bounds := every_countrySet_iff each_bounds_country_iff hIds fullReseed

/-- Whatever is compiled keeps the types of its columns and has no NULL where none is allowed. Banks keep
all length limits, and countries keep them exactly when their records do. -/
theorem compiled_conforms (countries : List CountryRecord) (banks : List BankRecord) (r : Resolver)
    (fullReseed : Bool) (p : Progress) :
    (∀ s q, compileCountries countries fullReseed p = (.ok s, q) → ConformsTo countries s) ∧
      (∀ t q, compileBanks banks r fullReseed p = (.ok t, q) →
        t.Every Column.Admits ∧ t.Every Column.Bounds) ∧
      ∀ s t q, compileSeed countries banks fullReseed p = (.ok (s, t), q) →
        ConformsTo countries s ∧ t.Every Column.Admits ∧ t.Every Column.Bounds := by
  refine ⟨?_, ?_, ?_⟩
  · intro s q h
    obtain ⟨-, rfl, -⟩ := compileCountries_eq_ok_iff.mp h
    exact conformsTo_countrySet (p.length_draws _) fullReseed
  · intro t q h
    obtain ⟨found, hFound, -, rfl, -⟩ := compileBanks_eq_ok_iff.mp h
    have hLength := (Resolver.resolveAll_map_eq_ok_iff.mp hFound).1
    exact ⟨every_bankSet each_admits_bank (p.length_draws _) hLength fullReseed,
      every_bankSet each_bounds_bank (p.length_draws _) hLength fullReseed⟩
  · intro s t q h
    obtain ⟨r', found, -, -, hFound, rfl, rfl, -⟩ := compileSeed_eq_ok_iff.mp h
    have hLength := (Resolver.resolveAll_map_eq_ok_iff.mp hFound).1
    have hIds := (p.afterDraws countries.length).length_draws banks.length
    exact ⟨conformsTo_countrySet (p.length_draws _) fullReseed,
      every_bankSet each_admits_bank hIds hLength fullReseed,
      every_bankSet each_bounds_bank hIds hLength fullReseed⟩


theorem compiled_conforms_ghana :
    (∃ s q, compileCountries [⟨"Cedi", "GHS", "Cedi", "Ghana", ""⟩] false .counting = (.ok s, q) ∧
      s.Every Column.Admits ∧ s.Every Column.Bounds) ∧
    (∃ t q, compileBanks [⟨"Alpha Bank", "3b0e6c1e-1f6a-4d8e-9a51-0e3c2f1d7a11"⟩] {} false .counting =
      (.ok t, q) ∧ t.Every Column.Admits ∧ t.Every Column.Bounds) ∧
    ∃ s t q, compileSeed [⟨"Cedi", "GHS", "Cedi", "Ghana", ""⟩] [⟨"Alpha Bank", " gHANA"⟩] false
        .counting = (.ok (s, t), q) ∧
      s.Every Column.Admits ∧ s.Every Column.Bounds ∧ t.Every Column.Admits ∧ t.Every Column.Bounds := by
  have hFits : ∀ c ∈ [CountryRecord.mk "Cedi" "GHS" "Cedi" "Ghana" ""], c.Fits :=
    List.forall_mem_singleton.mpr ⟨by decide, by decide, by decide⟩
  have hCountry : Progress.counting.Fresh [CountryRecord.mk "Cedi" "GHS" "Cedi" "Ghana" ""].length := by
    decide
  have hBank : Progress.counting.Fresh
      [BankRecord.mk "Alpha Bank" "3b0e6c1e-1f6a-4d8e-9a51-0e3c2f1d7a11"].length := by decide
  have hFound : Resolver.resolveAll {} ([BankRecord.mk "Alpha Bank"
      "3b0e6c1e-1f6a-4d8e-9a51-0e3c2f1d7a11"].map BankRecord.countryDiscriminator) =
        .ok [.ofNat 0x3b0e6c1e1f6a4d8e9a510e3c2f1d7a11] := by
    decide
  refine ⟨?_, ?_, ?_⟩
  · have hRun := compileCountries_of_fresh hCountry false
    have h := (compiled_conforms _ [] {} false .counting).1 _ _ hRun
    exact ⟨_, _, hRun, h.admits, h.bounds.mpr hFits⟩
  · have hRun := compileBanks_of_resolved hFound hBank false
    exact ⟨_, _, hRun, (compiled_conforms [] _ {} false .counting).2.1 _ _ hRun⟩
  · obtain ⟨s, t, q, hRun⟩ := compileSeed_ghana false
    obtain ⟨h, hBanks⟩ := (compiled_conforms _ _ {} false .counting).2.2 s t q hRun
    exact ⟨s, t, q, hRun, h.admits, h.bounds.mpr hFits, hBanks⟩

/-- A dataset with one country, whose currency code is longer than the column for it. -/
def longCode : Json :=
  .array [.object [(some "name", .string (some "Gold")), (some "code", .string (some "ABCDEFGHIJK")),
    (some "country", .string (some "Ghana"))]]

def onlyLongCode : Files.Tree :=
  Job.onlyFile (Text.Utf8.encode (longCode.indented ++ "\n"))

theorem loadCountries_longCode :
    Dataset.loadCountries onlyLongCode "c.json" .counting =
      (.ok [⟨"Gold", "ABCDEFGHIJK", "Gold", "Ghana", ""⟩],
        Progress.counting.reported (Dataset.loaded "countries" "c.json" 1)) := by
  have hPlain : longCode.PlainIn Json.nestingLimit := by
    refine .array (List.forall_mem_singleton.mpr (.object ?_ ?_))
    · simp
    · simp [Json.PlainIn.string]
  have hFile : ∀ bytes, (Job.onlyFile bytes).read? (.ofText "c.json") = some bytes := fun _ => rfl
  have hRead : Dataset.readJson onlyLongCode "c.json" = .ok longCode :=
    Dataset.readJson_print hPlain (hFile _)
  rw [Dataset.loadCountries, hRead, RunStep.bind_of_ok (RunStep.ofResult_apply _ _)]
  rfl

/-- Loading and compiling let a currency code pass that its column does not hold. -/
theorem compiled_exceeds_longCode :
    ∃ records q s q' values, Dataset.loadCountries onlyLongCode "c.json" .counting = (.ok records, q) ∧
      compileCountries records false q = (.ok s, q') ∧
      Schema.seeded.get s.table = .ok Schema.countries ∧
      s.Inserts Schema.countries.insertColumns [values] ∧
      ¬ Schema.countries.Each Column.Bounds values := by
  have hFresh : (Progress.counting.reported (Dataset.loaded "countries" "c.json" 1)).Fresh
      [CountryRecord.mk "Gold" "ABCDEFGHIJK" "Gold" "Ghana" ""].length := by decide
  have hRun := compileCountries_of_fresh hFresh false
  refine ⟨_, _, _, _, _, loadCountries_longCode, hRun, rfl,
    StatementSet.inserts_seedSet Schema.countries false (fun _ => ne_nil_of_mem_countryRows) _, ?_⟩
  intro hEach
  have hCode := ((each_bounds_country_iff _ _).mp hEach).code
  exact absurd hCode (by decide)

end SeedScript
