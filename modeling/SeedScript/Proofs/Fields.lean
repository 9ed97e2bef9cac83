import Mathlib.Data.List.Forall2
import Mathlib.Data.List.Nodup
import SeedScript.Record

/-!
# What fields are read from

An object offers a value for each field of a record, as a rule the one under the first of the keys of the
field that the object has. The verdict on an offer is a text or a problem. Main statement: where the offers
are what is found among the members of an object, the verdicts on them are what the fields are read as, so
a record consists of texts that fit its offers, or else the problems of the offers are reported in order.
-/

namespace SeedScript

namespace Json.Members

variable {members others : Members} {name : String} {value : Json}

theorem get?_append (first second : Members) (name : String) :
    get? (first ++ second) name = (second.get? name).or (first.get? name) := by
  rw [get?, List.reverse_append, List.lookup_append]
  rfl

theorem get?_nil (name : String) : get? [] name = none := rfl

theorem get?_singleton (value : Json) : get? [(some name, value)] name = some value := by
  simp [get?]

theorem get?_singleton_of_ne {key : String} (h : name ≠ key) (value : Json) :
    get? [(some key, value)] name = none := by
  have hBeq : (some name == some key) = false := by simpa using h
  rw [get?, List.reverse_singleton, List.lookup_cons, hBeq]
  rfl

/-- Where no key stands twice, a member is found wherever it stands. -/
theorem get?_eq_some_iff_mem (h : (members.map Prod.fst).Nodup) :
    members.get? name = some value ↔ (some name, value) ∈ members := by
  rw [get?, List.lookup_eq_some_iff]
  constructor
  · rintro ⟨before, after, hSplit, -⟩
    rw [← List.mem_reverse, hSplit]
    exact List.mem_append_right _ List.mem_cons_self
  · intro hMem
    obtain ⟨before, after, hSplit⟩ := List.append_of_mem (List.mem_reverse.mpr hMem)
    refine ⟨before, after, hSplit, fun m hm => ?_⟩
    have hKeys : (members.reverse.map Prod.fst).Nodup := by
      rwa [List.map_reverse, List.nodup_reverse]
    rw [hSplit, List.map_append, List.map_cons, List.nodup_append] at hKeys
    have hApart := hKeys.2.2 m.1 (List.mem_map_of_mem hm) (some name) List.mem_cons_self
    rw [bne_iff_ne]
    exact hApart.symm

theorem get?_of_perm (hPerm : members.Perm others) (h : (members.map Prod.fst).Nodup) (name : String) :
    others.get? name = members.get? name := by
  have hOthers : (others.map Prod.fst).Nodup := (hPerm.map Prod.fst).nodup_iff.mp h
  apply Option.ext
  intro value
  rw [get?_eq_some_iff_mem h, get?_eq_some_iff_mem hOthers, hPerm.mem_iff]

end Json.Members

namespace Record

namespace Field

variable {f : Field} {members others : Json.Members} {key : String} {value : Json}

/-- The value of a field in an object stands under the first of the keys that the object has. -/
inductive Takes (f : Field) (members : Json.Members) : String → Json → Prop
  | intro {before after : List String} {key : String} {value : Json} :
      f.keys = before ++ key :: after → (∀ k ∈ before, members.get? k = none) →
      members.get? key = some value → Takes f members key value

def Lacks (f : Field) (members : Json.Members) : Prop :=
  ∀ k ∈ f.keys, members.get? k = none

theorem find?_eq_some_iff : f.find? members = some (key, value) ↔ f.Takes members key value := by
  rw [find?, List.findSome?_eq_some_iff]
  simp only [Option.map_eq_some_iff, Option.map_eq_none_iff, Prod.mk.injEq]
  constructor
  · rintro ⟨before, k, after, hKeys, ⟨v, hFound, rfl, rfl⟩, hBefore⟩
    exact .intro hKeys hBefore hFound
  · rintro ⟨hKeys, hBefore, hFound⟩
    exact ⟨_, _, _, hKeys, ⟨_, hFound, rfl, rfl⟩, hBefore⟩

theorem find?_eq_none_iff : f.find? members = none ↔ f.Lacks members := by
  simp [find?, Lacks, List.findSome?_eq_none_iff]

theorem find?_congr (h : ∀ k ∈ f.keys, others.get? k = members.get? k) :
    f.find? others = f.find? members := by
  unfold find?
  generalize f.keys = keys at h
  induction keys with
  | nil => rfl
  | cons k keys ih =>
    obtain ⟨hFirst, hRest⟩ := List.forall_mem_cons.mp h
    rw [List.findSome?_cons, List.findSome?_cons, hFirst, ih hRest]

theorem read_congr (h : ∀ k ∈ f.keys, others.get? k = members.get? k) :
    f.read others = f.read members := by
  rw [read, read, find?_congr h]

end Field

/-- A field, and the values that an object offers for it, under their keys. -/
structure Offer where
  field : Field
  offers : String → Json → Prop

namespace Offer

variable {o : Offer} {members : Json.Members} {r : Except Validation.Problem String}

/-- Only a text fits, and in some fields it must not be empty. The problem of a value that does not fit is
found at its key, and that of a field without a value at the name of the field. -/
inductive Verdict (o : Offer) : Except Validation.Problem String → Prop
  | fit {key s : String} : o.offers key (.string (some s)) → (o.field.nonempty = true → s ≠ "") →
      Verdict o (.ok s)
  | short {key : String} : o.offers key (.string (some "")) → o.field.nonempty = true →
      Verdict o (.error ⟨[key], .tooShort⟩)
  | notUnicode {key : String} : o.offers key (.string none) → Verdict o (.error ⟨[key], .notUnicode⟩)
  | notText {key : String} {value : Json} : o.offers key value → value.kind ≠ .string →
      Verdict o (.error ⟨[key], .notText⟩)
  | missing : (∀ key value, ¬ o.offers key value) → Verdict o (.error ⟨[o.field.key], .missing⟩)

theorem read_of_verdict
    (h : ∀ key value, o.field.find? members = some (key, value) ↔ o.offers key value)
    (hVerdict : o.Verdict r) : o.field.read members = r := by
  rw [Field.read]
  cases hVerdict with
  | @fit key s hOffers hFit =>
    have hNot : ¬ (o.field.nonempty && s.isEmpty) = true := by
      rw [Bool.and_eq_true, String.isEmpty_iff]
      exact fun hBoth => hFit hBoth.1 hBoth.2
    rw [(h _ _).mpr hOffers]
    exact if_neg hNot
  | short hOffers hNonempty =>
    rw [(h _ _).mpr hOffers]
    exact if_pos (by rw [hNonempty]; rfl)
  | notUnicode hOffers =>
    rw [(h _ _).mpr hOffers]
    rfl
  | @notText key value hOffers hKind =>
    rw [(h _ _).mpr hOffers]
    cases value with
    | string => exact absurd rfl hKind
    | _ => rfl
  | missing hNone =>
    have hFind : o.field.find? members = none := by
      rw [Option.eq_none_iff_forall_ne_some]
      rintro ⟨key, value⟩ hSome
      exact hNone key value ((h _ _).mp hSome)
    rw [hFind]

theorem verdict_readText {key : String} {value : Json} (hOffers : o.offers key value) :
    o.Verdict (o.field.readText key value) := by
  cases value with
  | string text =>
    cases text with
    | none => exact .notUnicode hOffers
    | some s =>
      rw [Field.readText]
      split
      · next hEmpty =>
        rw [Bool.and_eq_true, String.isEmpty_iff] at hEmpty
        obtain ⟨hNonempty, rfl⟩ := hEmpty
        exact .short hOffers hNonempty
      · next hFit =>
        refine .fit hOffers fun hNonempty => ?_
        rintro rfl
        exact hFit (by rw [hNonempty]; rfl)
  | _ => exact .notText hOffers nofun

/-- The verdict on an offer that is found among members is what the field is read as. -/
theorem verdict_iff
    (h : ∀ key value, o.field.find? members = some (key, value) ↔ o.offers key value) :
    o.Verdict r ↔ o.field.read members = r := by
  constructor
  · exact read_of_verdict h
  · rintro rfl
    rw [Field.read]
    cases hFind : o.field.find? members with
    | none =>
      refine .missing fun key value hOffers => ?_
      rw [← h, hFind] at hOffers
      cases hOffers
    | some found => exact verdict_readText ((h _ _).mp hFind)

end Offer

/-- The texts that a record consists of fit the offers. -/
def Reads (offers : List Offer) (texts : List String) : Prop :=
  List.Forall₂ (fun o s => o.Verdict (.ok s)) offers texts

/-- The problems of all offers that do not fit, in order; there is one. -/
def Reports (offers : List Offer) (found : List Validation.Problem) : Prop :=
  ∃ verdicts, List.Forall₂ Offer.Verdict offers verdicts ∧ found = problems verdicts ∧ found ≠ []

theorem problems_eq_nil_iff {results : List (Except Validation.Problem String)} :
    problems results = [] ↔ ∀ r ∈ results, ∃ s, r = .ok s := by
  rw [problems, List.filterMap_eq_nil_iff]
  refine forall₂_congr fun r _ => ?_
  cases r <;> simp

/-- A record is made of what its fields are read as, or else their problems are reported. -/
inductive Collects {α : Type} (reads : List (Except Validation.Problem String)) (texts : α → List String) :
    Except (List Validation.Problem) α → Prop
  | ok {a : α} : reads = (texts a).map .ok → Collects reads texts (.ok a)
  | error : problems reads ≠ [] → Collects reads texts (.error (problems reads))

namespace Collects

variable {α : Type} {reads : List (Except Validation.Problem String)} {texts : α → List String}
  {r : Except (List Validation.Problem) α}

theorem problems_map_ok (ss : List String) : problems (ss.map .ok) = [] := by
  rw [problems_eq_nil_iff]
  intro x hx
  obtain ⟨s, -, rfl⟩ := List.mem_map.mp hx
  exact ⟨s, rfl⟩

theorem eq_ok_iff (h : Collects reads texts r) (hTexts : Function.Injective texts) {a : α} :
    r = .ok a ↔ reads = (texts a).map .ok := by
  cases h with
  | ok hReads =>
    constructor
    · intro hOk
      cases hOk
      exact hReads
    · intro hOther
      have hOk : Function.Injective (Except.ok : String → Except Validation.Problem String) :=
        fun _ _ => Except.ok.inj
      rw [hTexts (hOk.list_map (hReads.symm.trans hOther))]
  | error hSome =>
    constructor
    · intro hOk
      cases hOk
    · intro hReads
      rw [hReads] at hSome
      exact absurd (problems_map_ok _) hSome

theorem eq_error_iff (h : Collects reads texts r) {found : List Validation.Problem} :
    r = .error found ↔ found = problems reads ∧ found ≠ [] := by
  cases h with
  | ok hReads =>
    constructor
    · intro hError
      cases hError
    · rintro ⟨rfl, hSome⟩
      rw [hReads] at hSome
      exact absurd (problems_map_ok _) hSome
  | error hSome =>
    constructor
    · intro hError
      cases hError
      exact ⟨rfl, hSome⟩
    · rintro ⟨rfl, -⟩
      rfl

end Collects

/-- Offers that are found among members. -/
def Found (members : Json.Members) (offers : List Offer) : Prop :=
  ∀ o ∈ offers, ∀ key value, o.field.find? members = some (key, value) ↔ o.offers key value

namespace Found

variable {members : Json.Members} {offers : List Offer}

theorem forall₂_iff (h : Found members offers) {verdicts : List (Except Validation.Problem String)} :
    List.Forall₂ Offer.Verdict offers verdicts ↔ offers.map (·.field.read members) = verdicts := by
  induction offers generalizing verdicts with
  | nil => simp [eq_comm]
  | cons o offers ih =>
    obtain ⟨hFirst, hRest⟩ := List.forall_mem_cons.mp h
    rw [List.forall₂_cons_left_iff, List.map_cons]
    simp only [Offer.verdict_iff hFirst, ih hRest]
    constructor
    · rintro ⟨_, _, rfl, rfl, rfl⟩
      rfl
    · rintro rfl
      exact ⟨_, _, rfl, rfl, rfl⟩

theorem reads_iff (h : Found members offers) {texts : List String} :
    Reads offers texts ↔ offers.map (·.field.read members) = texts.map .ok := by
  rw [← h.forall₂_iff, List.forall₂_map_right_iff]
  rfl

theorem reports_iff (h : Found members offers) {found : List Validation.Problem} :
    Reports offers found ↔
      found = problems (offers.map (·.field.read members)) ∧ found ≠ [] := by
  simp only [Reports, h.forall₂_iff, exists_eq_left']

end Found

end Record

end SeedScript
