import SeedScript.Proofs.Fields

/-!
# What records are read from

A bank consists of what an object offers for its two fields. A country has five, and for two of them it is
offered something where the object has no value: the currency name is the name, and the flag is empty. Main
statement: an object is a record exactly if its texts fit what the object offers, and the problems of any
other object are those of its offers. Nothing but the values under the known keys counts.
-/

namespace SeedScript

namespace CountryRecord

open Record (Field Found Offer Reads Reports)

variable {members others : Json.Members} {k : String}

/-- The currency name that an object offers is its name, unless it has a key for the currency name. -/
inductive OffersCurrency (members : Json.Members) : String → Json → Prop
  | given {key : String} {value : Json} : currencyNameField.Takes members key value →
      OffersCurrency members key value
  | name {value : Json} : currencyNameField.Lacks members → members.get? "name" = some value →
      OffersCurrency members "currency_name" value
  | nothing : currencyNameField.Lacks members → members.get? "name" = none →
      OffersCurrency members "currency_name" .null

/-- A flag that is missing or null is empty. -/
inductive OffersFlag (members : Json.Members) : String → Json → Prop
  | given {value : Json} : members.get? "flag" = some value → value.kind ≠ .null →
      OffersFlag members "flag" value
  | empty : members.get? "flag" = none ∨ members.get? "flag" = some .null →
      OffersFlag members "flag" (.string (some ""))

def offers (members : Json.Members) : List Offer := [
  ⟨nameField, nameField.Takes members⟩, ⟨currencyCodeField, currencyCodeField.Takes members⟩,
  ⟨currencyNameField, OffersCurrency members⟩, ⟨countryNameField, countryNameField.Takes members⟩,
  ⟨flagField, OffersFlag members⟩]

theorem get?_fill (members : Json.Members) (k : String) : (fill members).get? k =
    (Json.Members.get? (match members.get? "flag" with
      | none | some .null => [(some "flag", .string (some ""))]
      | some _ => []) k).or
      ((Json.Members.get? (if (currencyNameField.find? members).isNone then
        [(some "currency_name", (members.get? "name").getD .null)] else []) k).or (members.get? k)) := by
  have hInner := Json.Members.get?_append members
    (if (currencyNameField.find? members).isNone then
      [(some "currency_name", (members.get? "name").getD .null)] else []) k
  exact (Json.Members.get?_append _ _ k).trans (congrArg (Option.or _) hInner)

theorem get?_fill_of_ne (hCurrency : k ≠ "currency_name") (hFlag : k ≠ "flag") :
    (fill members).get? k = members.get? k := by
  rw [get?_fill]
  split <;> split <;> simp [Json.Members.get?_singleton_of_ne, Json.Members.get?_nil, *]

theorem get?_fill_currency (members : Json.Members) : (fill members).get? "currency_name" =
    if (currencyNameField.find? members).isNone then some ((members.get? "name").getD .null)
    else members.get? "currency_name" := by
  rw [get?_fill]
  split <;> split <;> simp [Json.Members.get?_singleton_of_ne, Json.Members.get?_singleton,
    Json.Members.get?_nil, *]

theorem get?_fill_flag_of_empty (h : members.get? "flag" = none ∨ members.get? "flag" = some .null) :
    (fill members).get? "flag" = some (.string (some "")) := by
  rw [get?_fill]
  rcases h with h | h <;> simp [h, Json.Members.get?_singleton]

theorem get?_fill_flag_of_given {value : Json} (h : members.get? "flag" = some value)
    (hKind : value.kind ≠ .null) : (fill members).get? "flag" = some value := by
  rw [get?_fill, h]
  split
  · next hNone => cases hNone
  · next hNull =>
    cases hNull
    exact absurd rfl hKind
  · split <;> simp [Json.Members.get?_singleton_of_ne, Json.Members.get?_nil]

theorem find?_fill {f : Field} (hCurrency : "currency_name" ∉ f.keys) (hFlag : "flag" ∉ f.keys) :
    f.find? (fill members) = f.find? members :=
  Field.find?_congr fun _ hk =>
    get?_fill_of_ne (fun h => hCurrency (h ▸ hk)) fun h => hFlag (h ▸ hk)

theorem find?_fill_currency (members : Json.Members) {key : String} {value : Json} :
    currencyNameField.find? (fill members) = some (key, value) ↔ OffersCurrency members key value := by
  cases hFind : currencyNameField.find? members with
  | none =>
    have hLacks := Field.find?_eq_none_iff.mp hFind
    have hFilled : currencyNameField.find? (fill members) =
        some ("currency_name", (members.get? "name").getD .null) := by
      have hGet := get?_fill_currency members
      rw [hFind] at hGet
      simp [Field.find?, Field.keys, currencyNameField, hGet]
    rw [hFilled, Option.some_inj, Prod.mk.injEq]
    constructor
    · rintro ⟨rfl, rfl⟩
      cases hName : members.get? "name" with
      | none => exact .nothing hLacks hName
      | some value => exact .name hLacks hName
    · rintro (hTakes | ⟨-, hName⟩ | ⟨-, hName⟩)
      · cases hFind.symm.trans (Field.find?_eq_some_iff.mpr hTakes)
      · rw [hName]
        exact ⟨rfl, rfl⟩
      · rw [hName]
        exact ⟨rfl, rfl⟩
  | some found =>
    have hFilled : currencyNameField.find? (fill members) = currencyNameField.find? members := by
      apply Field.find?_congr
      intro k hk
      by_cases hCurrency : k = "currency_name"
      · rw [hCurrency, get?_fill_currency, hFind]
        rfl
      · apply get?_fill_of_ne hCurrency
        rintro rfl
        exact absurd hk (by decide)
    rw [hFilled, Field.find?_eq_some_iff]
    constructor
    · exact .given
    · rintro (hTakes | ⟨hLacks, -⟩ | ⟨hLacks, -⟩)
      · exact hTakes
      · cases hFind.symm.trans (Field.find?_eq_none_iff.mpr hLacks)
      · cases hFind.symm.trans (Field.find?_eq_none_iff.mpr hLacks)

theorem find?_fill_flag (members : Json.Members) {key : String} {value : Json} :
    flagField.find? (fill members) = some (key, value) ↔ OffersFlag members key value := by
  have hFind : ∀ v, (fill members).get? "flag" = some v →
      flagField.find? (fill members) = some ("flag", v) := by
    intro v hv
    simp [Field.find?, Field.keys, flagField, hv]
  constructor
  · intro h
    by_cases hEmpty : members.get? "flag" = none ∨ members.get? "flag" = some .null
    · cases h.symm.trans (hFind _ (get?_fill_flag_of_empty hEmpty))
      exact .empty hEmpty
    · rw [not_or] at hEmpty
      obtain ⟨v, hv⟩ := Option.ne_none_iff_exists'.mp hEmpty.1
      have hKind : v.kind ≠ .null := by
        intro hNull
        cases v with
        | null => exact hEmpty.2 hv
        | _ => cases hNull
      cases h.symm.trans (hFind _ (get?_fill_flag_of_given hv hKind))
      exact .given hv hKind
  · rintro (⟨hGiven, hKind⟩ | hEmpty)
    · exact hFind _ (get?_fill_flag_of_given hGiven hKind)
    · exact hFind _ (get?_fill_flag_of_empty hEmpty)

theorem found_fill (members : Json.Members) : Found (fill members) (offers members) := by
  have hTaken : ∀ f : Field, "currency_name" ∉ f.keys → "flag" ∉ f.keys → ∀ key value,
      f.find? (fill members) = some (key, value) ↔ f.Takes members key value := by
    intro f hCurrency hFlag key value
    rw [find?_fill hCurrency hFlag, Field.find?_eq_some_iff]
  simp only [Found, offers, List.forall_mem_cons]
  refine ⟨?_, ?_, ?_, ?_, ?_, List.forall_mem_nil _⟩
  · exact hTaken nameField (by decide) (by decide)
  · exact hTaken currencyCodeField (by decide) (by decide)
  · exact fun key value => find?_fill_currency members
  · exact hTaken countryNameField (by decide) (by decide)
  · exact fun key value => find?_fill_flag members

theorem injective_texts : Function.Injective fun c : CountryRecord => c.fields.map Prod.snd := by
  rintro ⟨⟩ ⟨⟩ h
  simpa [fields] using h

theorem collects_ofMembers (members : Json.Members) :
    Record.Collects ((offers members).map (·.field.read (fill members)))
      (fun c => c.fields.map Prod.snd) (ofMembers members) := by
  simp only [offers, ofMembers, List.map_cons, List.map_nil]
  split
  · next hName hCode hCurrency hCountry hFlag =>
    rw [hName, hCode, hCurrency, hCountry, hFlag]
    exact .ok rfl
  · next hNot =>
    refine .error fun hNone => ?_
    simp only [Record.problems_eq_nil_iff, List.forall_mem_cons] at hNone
    obtain ⟨⟨name, hName⟩, ⟨code, hCode⟩, ⟨currency, hCurrency⟩, ⟨country, hCountry⟩, ⟨flag, hFlag⟩,
      -⟩ := hNone
    exact hNot _ _ _ _ _ hName hCode hCurrency hCountry hFlag

/-- An object is a country exactly if its texts fit what the object offers. -/
theorem ofMembers_eq_ok_iff {c : CountryRecord} :
    ofMembers members = .ok c ↔ Reads (offers members) (c.fields.map Prod.snd) := by
  rw [(found_fill members).reads_iff]
  exact (collects_ofMembers members).eq_ok_iff injective_texts

theorem ofMembers_eq_error_iff {found : List Validation.Problem} :
    ofMembers members = .error found ↔ Reports (offers members) found := by
  rw [(found_fill members).reports_iff]
  exact (collects_ofMembers members).eq_error_iff

/-- The keys that count. -/
def keys : List String :=
  [nameField, currencyCodeField, currencyNameField, countryNameField, flagField].flatMap Field.keys

theorem get?_fill_congr (h : ∀ k ∈ keys, others.get? k = members.get? k) (hk : k ∈ keys) :
    (fill others).get? k = (fill members).get? k := by
  have hFind : currencyNameField.find? others = currencyNameField.find? members :=
    Field.find?_congr fun k hk => h k (List.mem_flatMap.mpr ⟨_, by simp, hk⟩)
  rw [get?_fill, get?_fill, hFind, h "flag" (by decide), h "name" (by decide), h k hk]

theorem ofMembers_congr (h : ∀ k ∈ keys, others.get? k = members.get? k) :
    ofMembers others = ofMembers members := by
  have hRead : ∀ f ∈ [nameField, currencyCodeField, currencyNameField, countryNameField, flagField],
      f.read (fill others) = f.read (fill members) := fun f hf =>
    Field.read_congr fun k hk => get?_fill_congr h (List.mem_flatMap.mpr ⟨f, hf, hk⟩)
  simp only [List.forall_mem_cons] at hRead
  obtain ⟨hName, hCode, hCurrency, hCountry, hFlag, -⟩ := hRead
  simp only [ofMembers, hName, hCode, hCurrency, hCountry, hFlag]

end CountryRecord

namespace BankRecord

open Record (Field Found Offer Reads Reports)

variable {members : Json.Members}

def offers (members : Json.Members) : List Offer :=
  [⟨bankNameField, bankNameField.Takes members⟩, ⟨discriminatorField, discriminatorField.Takes members⟩]

theorem found (members : Json.Members) : Found members (offers members) := by
  simp only [Found, offers, List.forall_mem_cons]
  exact ⟨fun _ _ => Field.find?_eq_some_iff, fun _ _ => Field.find?_eq_some_iff, List.forall_mem_nil _⟩

theorem injective_texts : Function.Injective fun b : BankRecord => b.fields.map Prod.snd := by
  rintro ⟨⟩ ⟨⟩ h
  simpa [fields] using h

theorem collects_ofMembers (members : Json.Members) :
    Record.Collects ((offers members).map (·.field.read members)) (fun b => b.fields.map Prod.snd)
      (ofMembers members) := by
  simp only [offers, ofMembers, List.map_cons, List.map_nil]
  split
  · next hName hCountry =>
    rw [hName, hCountry]
    exact .ok rfl
  · next hNot =>
    refine .error fun hNone => ?_
    simp only [Record.problems_eq_nil_iff, List.forall_mem_cons] at hNone
    obtain ⟨⟨name, hName⟩, ⟨country, hCountry⟩, -⟩ := hNone
    exact hNot _ _ hName hCountry

/-- An object is a bank exactly if its texts fit what the object offers. -/
theorem ofMembers_eq_ok_iff {b : BankRecord} :
    ofMembers members = .ok b ↔ Reads (offers members) (b.fields.map Prod.snd) := by
  rw [(found members).reads_iff]
  exact (collects_ofMembers members).eq_ok_iff injective_texts

theorem ofMembers_eq_error_iff {found : List Validation.Problem} :
    ofMembers members = .error found ↔ Reports (offers members) found := by
  rw [(BankRecord.found members).reports_iff]
  exact (collects_ofMembers members).eq_error_iff

end BankRecord

end SeedScript
