import SeedScript.Resolver
import Mathlib.Data.List.Forall2

/-!
# What discriminators resolve to

The index of names is the first-match look-up in the list of countries. From it follows what a
resolver finds: an identifier stands for itself, and a name for the first country with its key. A
list of discriminators is resolved entry by entry, and the first entry that cannot be resolved
decides the error.
-/

namespace SeedScript

namespace NameIndex

theorem lookup_add (index : NameIndex) (key : String) (i : Identifier) (k : String) :
    (index.add key i).lookup k = (index.lookup k).or ([(key, i)].lookup k) := by
  unfold add
  split
  · next h =>
    by_cases hk : k = key
    · subst hk
      obtain ⟨u, hu⟩ := Option.isSome_iff_exists.mp h
      rw [hu, Option.some_or]
    · simp [List.lookup_cons, beq_false_of_ne hk]
  · rw [List.lookup_append]

theorem lookup_foldl_add (pairs : List (String × Identifier)) (index : NameIndex) (k : String) :
    (pairs.foldl (fun index pair => index.add pair.1 pair.2) index).lookup k =
      (index.lookup k).or (pairs.lookup k) := by
  induction pairs generalizing index with
  | nil => simp
  | cons pair pairs ih =>
    rw [List.foldl_cons, ih, lookup_add, Option.or_assoc, ← List.lookup_append,
      List.singleton_append]

/-- The first entry of a key counts. -/
theorem lookup_ofPairs (pairs : List (String × Identifier)) (k : String) :
    (ofPairs pairs).lookup k = pairs.lookup k := by
  rw [ofPairs, lookup_foldl_add]
  rfl

theorem lookup_zip_eq_some_iff {keys : List String} {ids : List Identifier} {k : String}
    {u : Identifier} :
    (keys.zip ids).lookup k = some u ↔
      ∃ i : Nat, keys[i]? = some k ∧ ids[i]? = some u ∧ ∀ j < i, keys[j]? ≠ some k := by
  induction keys generalizing ids with
  | nil => simp
  | cons key keys ih =>
    cases ids with
    | nil => simp
    | cons id ids =>
      rw [List.zip_cons_cons, List.lookup_cons]
      by_cases hk : k = key
      · subst hk
        simp only [beq_self_eq_true]
        constructor
        · intro h
          exact ⟨0, rfl, h, by simp⟩
        · rintro ⟨i, -, hu, hFirst⟩
          cases i with
          | zero => exact hu
          | succ i => exact absurd rfl (hFirst 0 (by omega))
      · simp only [beq_false_of_ne hk, ih]
        constructor
        · rintro ⟨i, hKey, hu, hFirst⟩
          refine ⟨i + 1, hKey, hu, fun j hj => ?_⟩
          cases j with
          | zero => simpa using Ne.symm hk
          | succ j => exact hFirst j (by omega)
        · rintro ⟨i, hKey, hu, hFirst⟩
          cases i with
          | zero => exact absurd (Option.some.inj hKey).symm hk
          | succ i => exact ⟨i, hKey, hu, fun j hj => hFirst (j + 1) (by omega)⟩

end NameIndex

namespace Resolver

variable {records : List CountryRecord} {ids : List Identifier} {keepPrior : Bool} {r : Resolver}

/-- Position `i` has the first country whose name has the key of a discriminator. -/
def FirstNamed (records : List CountryRecord) (discriminator : String) (i : Nat) : Prop :=
  (∃ c, records[i]? = some c ∧ nameKey c.countryName = nameKey discriminator) ∧
    ∀ j < i, ∀ c, records[j]? = some c → nameKey c.countryName ≠ nameKey discriminator

theorem ofCountries_of_length (h : records.length = ids.length) :
    ofCountries records ids keepPrior = .ok {
      hasCountries := !records.isEmpty
      known := ids
      byName := .ofPairs (List.zip (records.map fun c => nameKey c.countryName) ids)
      keepPrior } := by
  rw [ofCountries, if_pos h]

theorem find_eq_of_parse {d : String} {i : Identifier} (h : Identifier.parse? d = some i) :
    r.find d = if !r.hasCountries || r.keepPrior || r.known.contains i then .ok i
      else .error .foreignIdentifier := by
  rw [find, h]

theorem find_eq_of_parse_none {d : String} (h : Identifier.parse? d = none) :
    r.find d = if r.hasCountries then
        (r.byName.lookup (nameKey d)).elim (.error .unknownName) .ok
      else .error .nothingToLookUp := by
  rw [find, h]
  cases r.byName.lookup (nameKey d) <;> rfl

/-- An identifier stands for itself, where it is accepted. -/
theorem eq_of_find_of_parse {d : String} {i u : Identifier} (hParse : Identifier.parse? d = some i)
    (h : r.find d = .ok u) : u = i := by
  rw [find_eq_of_parse hParse] at h
  split at h
  · exact (Except.ok.inj h).symm
  · cases h

theorem firstNamed_iff {d : String} {i : Nat} :
    FirstNamed records d i ↔
      (records.map fun c => nameKey c.countryName)[i]? = some (nameKey d) ∧
        ∀ j < i, (records.map fun c => nameKey c.countryName)[j]? ≠ some (nameKey d) := by
  simp [FirstNamed]

theorem lookup_names_iff {d : String} {u : Identifier} :
    (List.zip (records.map fun c => nameKey c.countryName) ids).lookup (nameKey d) = some u ↔
      ∃ i, FirstNamed records d i ∧ ids[i]? = some u := by
  rw [NameIndex.lookup_zip_eq_some_iff]
  constructor
  · rintro ⟨i, hKey, hu, hFirst⟩
    exact ⟨i, firstNamed_iff.mpr ⟨hKey, hFirst⟩, hu⟩
  · rintro ⟨i, hNamed, hu⟩
    obtain ⟨hKey, hFirst⟩ := firstNamed_iff.mp hNamed
    exact ⟨i, hKey, hu, hFirst⟩

/-- A name stands for the first country with its key. -/
theorem find_name_iff (hr : ofCountries records ids keepPrior = .ok r) {d : String}
    (hParse : Identifier.parse? d = none) {u : Identifier} :
    r.find d = .ok u ↔ ∃ i, FirstNamed records d i ∧ ids[i]? = some u := by
  rw [ofCountries] at hr
  split at hr
  · cases hr
    rw [← lookup_names_iff, find_eq_of_parse_none hParse, NameIndex.lookup_ofPairs]
    cases records with
    | nil => simp
    | cons c cs =>
      simp only [List.isEmpty_cons, Bool.not_false, if_true]
      cases (List.zip ((c :: cs).map fun c => nameKey c.countryName) ids).lookup (nameKey d) <;> simp
  · cases hr

/-- With countries and without identifiers of earlier runs, what is found is an identifier of one of
the countries. -/
theorem mem_of_find (hr : ofCountries records ids false = .ok r) (hne : records ≠ []) {d : String}
    {u : Identifier} (h : r.find d = .ok u) : u ∈ ids := by
  cases hParse : Identifier.parse? d with
  | none =>
    obtain ⟨i, -, hu⟩ := (find_name_iff hr hParse).mp h
    exact List.mem_of_getElem? hu
  | some i =>
    rw [ofCountries] at hr
    split at hr
    · cases hr
      rw [find_eq_of_parse hParse] at h
      split at h
      · next hKnown =>
        cases h
        simpa [hne] using hKnown
      · cases h
    · cases hr

theorem resolve_eq_ok_iff {d : String} {index : Option Nat} {u : Identifier} :
    r.resolve d index = .ok u ↔ r.find d = .ok u := by
  unfold resolve
  cases r.find d <;> simp [Except.mapError]

theorem resolve_of_find_error {d : String} {index : Option Nat} {why : Unresolved}
    (h : r.find d = .error why) :
    r.resolve d index = .error (.ofProblem (.unresolved d why) none index) := by
  rw [resolve, h]
  rfl

theorem resolveFrom_cons_of_ok {start : Nat} {d : String} {ds : List String} {u : Identifier}
    (h : r.find d = .ok u) :
    r.resolveFrom start (d :: ds) = (r.resolveFrom (start + 1) ds).map (u :: ·) := by
  rw [resolveFrom, resolve_eq_ok_iff.mpr h]

theorem resolveFrom_cons_of_error {start : Nat} {d : String} {ds : List String} {why : Unresolved}
    (h : r.find d = .error why) :
    r.resolveFrom start (d :: ds) = .error (.ofProblem (.unresolved d why) none (some start)) := by
  rw [resolveFrom, resolve_of_find_error h]

theorem resolveFrom_eq_ok_iff {start : Nat} {ds : List String} {us : List Identifier} :
    r.resolveFrom start ds = .ok us ↔ List.Forall₂ (fun d u => r.find d = .ok u) ds us := by
  induction ds generalizing start us with
  | nil => simp [resolveFrom, eq_comm]
  | cons d ds ih =>
    cases hd : r.find d with
    | error why =>
      rw [resolveFrom_cons_of_error hd]
      constructor
      · intro h
        cases h
      · rintro (_ | ⟨h, -⟩)
        rw [hd] at h
        cases h
    | ok u =>
      rw [resolveFrom_cons_of_ok hd]
      constructor
      · intro h
        cases hTail : r.resolveFrom (start + 1) ds with
        | error e => rw [hTail] at h; cases h
        | ok rest =>
          rw [hTail] at h
          cases h
          exact .cons hd (ih.mp hTail)
      · rintro (_ | ⟨h, hRest⟩)
        rw [hd] at h
        cases h
        rw [ih.mpr hRest]
        rfl

theorem resolveFrom_cons_eq_error_iff {start : Nat} {d : String} {ds : List String} {u : Identifier}
    {e : Error} (hd : r.find d = .ok u) :
    r.resolveFrom start (d :: ds) = .error e ↔ r.resolveFrom (start + 1) ds = .error e := by
  rw [resolveFrom_cons_of_ok hd]
  cases r.resolveFrom (start + 1) ds <;> simp [Except.map]

theorem resolveFrom_eq_error_iff {start : Nat} {ds : List String} {e : Error} :
    r.resolveFrom start ds = .error e ↔
      ∃ (j : Nat) (d : String) (why : Unresolved), ds[j]? = some d ∧ r.find d = .error why ∧
        e = .ofProblem (.unresolved d why) none (some (start + j)) ∧
        ∀ i < j, ∀ d', ds[i]? = some d' → ∃ u, r.find d' = .ok u := by
  induction ds generalizing start with
  | nil => simp [resolveFrom]
  | cons d ds ih =>
    cases hd : r.find d with
    | error why =>
      rw [resolveFrom_cons_of_error hd]
      constructor
      · intro h
        cases h
        exact ⟨0, d, why, rfl, hd, rfl, by simp⟩
      · rintro ⟨j, d', why', hj, hd', rfl, hBefore⟩
        cases j with
        | zero =>
          cases hj
          rw [hd] at hd'
          cases hd'
          rfl
        | succ j =>
          obtain ⟨u, hu⟩ := hBefore 0 (by omega) d rfl
          rw [hd] at hu
          cases hu
    | ok u =>
      rw [resolveFrom_cons_eq_error_iff hd, ih]
      constructor
      · rintro ⟨j, d', why, hj, hd', rfl, hBefore⟩
        refine ⟨j + 1, d', why, hj, hd', by rw [Nat.add_right_comm, Nat.add_assoc], ?_⟩
        intro i hi d'' hd''
        cases i with
        | zero =>
          cases hd''
          exact ⟨u, hd⟩
        | succ i => exact hBefore i (by omega) d'' hd''
      · rintro ⟨j, d', why, hj, hd', rfl, hBefore⟩
        cases j with
        | zero =>
          cases hj
          rw [hd] at hd'
          cases hd'
        | succ j =>
          exact ⟨j, d', why, hj, hd', by rw [Nat.add_right_comm, Nat.add_assoc],
            fun i hi d'' hd'' => hBefore (i + 1) (by omega) d'' hd''⟩

theorem resolveAll_eq_ok_iff {ds : List String} {us : List Identifier} :
    r.resolveAll ds = .ok us ↔ us.length = ds.length ∧
      ∀ (j : Nat) (d : String), ds[j]? = some d → ∃ u, us[j]? = some u ∧ r.find d = .ok u := by
  rw [resolveAll, resolveFrom_eq_ok_iff, List.forall₂_iff_get]
  constructor
  · rintro ⟨hLength, hFind⟩
    refine ⟨hLength.symm, fun j d hd => ?_⟩
    obtain ⟨hj, rfl⟩ := List.getElem?_eq_some_iff.mp hd
    exact ⟨us[j], List.getElem?_eq_getElem (hLength ▸ hj), hFind j hj (hLength ▸ hj)⟩
  · rintro ⟨hLength, hFind⟩
    refine ⟨hLength.symm, fun j hj hj' => ?_⟩
    obtain ⟨u, hu, hd⟩ := hFind j ds[j] (List.getElem?_eq_getElem hj)
    obtain ⟨_, rfl⟩ := List.getElem?_eq_some_iff.mp hu
    exact hd

theorem resolveAll_map_eq_ok_iff {α : Type} {f : α → String} {xs : List α} {us : List Identifier} :
    r.resolveAll (xs.map f) = .ok us ↔ us.length = xs.length ∧
      ∀ (j : Nat) (x : α), xs[j]? = some x → ∃ u, us[j]? = some u ∧ r.find (f x) = .ok u := by
  rw [resolveAll_eq_ok_iff, List.length_map]
  simp only [List.getElem?_map, Option.map_eq_some_iff, forall_exists_index, and_imp,
    forall_apply_eq_imp_iff₂]

theorem resolve_eq_error_iff {d : String} {index : Option Nat} {e : Error} :
    r.resolve d index = .error e ↔
      ∃ why, r.find d = .error why ∧ e = .ofProblem (.unresolved d why) none index := by
  unfold resolve
  cases r.find d <;> simp [Except.mapError, eq_comm]

/-- The first discriminator that is refused decides the error of all. -/
theorem resolveAll_eq_error_iff {ds : List String} {e : Error} :
    r.resolveAll ds = .error e ↔
      ∃ (j : Nat) (d : String), ds[j]? = some d ∧ r.resolve d (some j) = .error e ∧
        ∀ i < j, ∀ d', ds[i]? = some d' → ∃ u, r.resolve d' (some i) = .ok u := by
  rw [resolveAll, resolveFrom_eq_error_iff]
  simp only [resolve_eq_error_iff, resolve_eq_ok_iff, Nat.zero_add]
  constructor
  · rintro ⟨j, d, why, hj, hFind, rfl, hBefore⟩
    exact ⟨j, d, hj, ⟨why, hFind, rfl⟩, hBefore⟩
  · rintro ⟨j, d, hj, ⟨why, hFind, rfl⟩, hBefore⟩
    exact ⟨j, d, why, hj, hFind, rfl, hBefore⟩

theorem failure_of_resolveAll {ds : List String} {e : Error} (h : r.resolveAll ds = .error e) :
    ∃ f, e = .failure f ∧ f.problem.type = "DatasetError" ∧ f.stage = .compile := by
  obtain ⟨j, d, -, hResolve, -⟩ := resolveAll_eq_error_iff.mp h
  obtain ⟨why, -, rfl⟩ := resolve_eq_error_iff.mp hResolve
  exact ⟨_, rfl, rfl, rfl⟩

theorem resolveAll_map_eq_error_iff {α : Type} {f : α → String} {xs : List α} {e : Error} :
    r.resolveAll (xs.map f) = .error e ↔
      ∃ (j : Nat) (x : α), xs[j]? = some x ∧ r.resolve (f x) (some j) = .error e ∧
        ∀ i < j, ∀ x', xs[i]? = some x' → ∃ u, r.resolve (f x') (some i) = .ok u := by
  rw [resolveAll_eq_error_iff]
  simp only [List.getElem?_map, Option.map_eq_some_iff, forall_exists_index, and_imp,
    forall_apply_eq_imp_iff₂]
  constructor
  · rintro ⟨j, _, ⟨x, hx, rfl⟩, hResolve, hBefore⟩
    exact ⟨j, x, hx, hResolve, hBefore⟩
  · rintro ⟨j, x, hx, hResolve, hBefore⟩
    exact ⟨j, f x, ⟨x, hx, rfl⟩, hResolve, hBefore⟩

end Resolver
end SeedScript
