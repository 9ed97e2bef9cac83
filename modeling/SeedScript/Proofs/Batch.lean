import SeedScript.Progress
import Mathlib.Data.List.Nodup

/-!
# Steps and batches of identifiers

How a step made of two steps runs, and what a draw of several identifiers does: it gives the next
items of the supply if they are new to the batch and differ from each other, and otherwise it stops
at the first that is not new, with the items before it issued.
-/

namespace SeedScript

namespace RunStep

variable {α β : Type} {x : RunStep α} {f : α → RunStep β} {p q : Progress}

theorem pure_apply (a : α) (p : Progress) : (pure a : RunStep α) p = (.ok a, p) := rfl

theorem ofResult_apply (r : Except Error α) (p : Progress) : ofResult r p = (r, p) := rfl

theorem ofResult_eq_ok_iff {r : Except Error α} {a : α} :
    ofResult r p = (.ok a, q) ↔ r = .ok a ∧ q = p := by
  rw [ofResult_apply]
  constructor
  · intro h
    cases h
    exact ⟨rfl, rfl⟩
  · rintro ⟨rfl, rfl⟩
    rfl

theorem bind_of_ok {a : α} (h : x p = (.ok a, q)) : (x >>= f) p = f a q := by
  simp only [bind, ExceptT.bind, ExceptT.mk, StateT.bind, h, ExceptT.bindCont]

theorem bind_of_error {e : Error} (h : x p = (.error e, q)) : (x >>= f) p = (.error e, q) := by
  simp only [bind, ExceptT.bind, ExceptT.mk, StateT.bind, h, ExceptT.bindCont]
  rfl

theorem bind_eq_ok_iff {b : β} {r : Progress} :
    (x >>= f) p = (.ok b, r) ↔ ∃ a q, x p = (.ok a, q) ∧ f a q = (.ok b, r) := by
  rcases hx : x p with ⟨e | a, q⟩
  · rw [bind_of_error hx]
    constructor
    · intro h
      cases h
    · rintro ⟨a, q', h, -⟩
      cases h
  · rw [bind_of_ok hx]
    constructor
    · intro h
      exact ⟨a, q, rfl, h⟩
    · rintro ⟨a', q', h, hf⟩
      cases h
      exact hf

theorem bind_eq_error_iff {e : Error} {r : Progress} :
    (x >>= f) p = (.error e, r) ↔
      x p = (.error e, r) ∨ ∃ a q, x p = (.ok a, q) ∧ f a q = (.error e, r) := by
  rcases hx : x p with ⟨e' | a, q⟩
  · rw [bind_of_error hx]
    constructor
    · intro h
      cases h
      exact .inl rfl
    · rintro (h | ⟨a, q', h, -⟩)
      · cases h
        rfl
      · cases h
  · rw [bind_of_ok hx]
    constructor
    · intro h
      exact .inr ⟨a, q, rfl, h⟩
    · rintro (h | ⟨a', q', h, hf⟩)
      · cases h
      · cases h
        exact hf

end RunStep

namespace Progress

/-- The progress of a run that is given the identifiers 0, 1, 2 and so on. -/
def counting : Progress where
  identifiers := { item := Identifier.ofNat }
  companies := { item := fun _ => "" }

/-- The next `n` identifiers of the supply. -/
def draws (p : Progress) (n : Nat) : List Identifier :=
  (List.range n).map p.identifiers.get

def afterDraws (p : Progress) (n : Nat) : Progress :=
  { p with identifiers := p.identifiers.drop n, issued := (p.draws n).reverse ++ p.issued }

/-- Whether the next `n` identifiers are new to the batch and differ from each other. -/
def Fresh (p : Progress) (n : Nat) : Prop :=
  (p.draws n).Nodup ∧ ∀ i ∈ p.draws n, i ∉ p.issued

def reported (p : Progress) (e : Log.Event) : Progress :=
  { p with events := p.events ++ [e] }

@[simp] theorem draws_reported (p : Progress) (e : Log.Event) (n : Nat) :
    (p.reported e).draws n = p.draws n := rfl

@[simp] theorem length_draws (p : Progress) (n : Nat) : (p.draws n).length = n := by
  simp [draws]

theorem getElem?_draws (p : Progress) {n i : Nat} (h : i < n) :
    (p.draws n)[i]? = some (p.identifiers.get i) := by
  simp [draws, h]

instance (p : Progress) (n : Nat) : Decidable (p.Fresh n) :=
  inferInstanceAs (Decidable ((p.draws n).Nodup ∧ ∀ i ∈ p.draws n, i ∉ p.issued))

theorem draws_succ (p : Progress) (n : Nat) :
    p.draws (n + 1) = p.identifiers.get 0 :: (p.afterDraws 1).draws n := by
  simp only [draws, afterDraws, List.range_succ_eq_map, List.map_cons, List.map_map]
  congr 1
  apply List.map_congr_left
  intro i _
  simp [Nat.add_comm]

theorem afterDraws_succ (p : Progress) (n : Nat) :
    p.afterDraws (n + 1) = (p.afterDraws 1).afterDraws n := by
  have hDraws := draws_succ p n
  simp only [afterDraws] at hDraws ⊢
  rw [hDraws]
  simp [draws, Nat.add_comm]

theorem get_afterDraws_one (p : Progress) (k : Nat) :
    (p.afterDraws 1).identifiers.get k = p.identifiers.get (k + 1) := by
  rw [Nat.add_comm]
  exact p.identifiers.get_drop 1 k

theorem drop_afterDraws_one (p : Progress) (k : Nat) :
    (p.afterDraws 1).identifiers.drop k = p.identifiers.drop (k + 1) := by
  rw [Nat.add_comm]
  exact p.identifiers.drop_drop 1 k

theorem draws_add (p : Progress) (m n : Nat) :
    p.draws (m + n) = p.draws m ++ (p.afterDraws m).draws n := by
  simp [draws, afterDraws, List.range_add, Function.comp_def]

theorem fresh_zero (p : Progress) : p.Fresh 0 := by
  simp [Fresh, draws]

theorem fresh_succ_iff (p : Progress) (n : Nat) :
    p.Fresh (n + 1) ↔ p.identifiers.get 0 ∉ p.issued ∧ (p.afterDraws 1).Fresh n := by
  simp only [Fresh, draws_succ, List.nodup_cons, List.forall_mem_cons]
  have hIssued : (p.afterDraws 1).issued = p.identifiers.get 0 :: p.issued := by
    simp [afterDraws, draws]
  simp only [hIssued, List.mem_cons, not_or]
  constructor
  · rintro ⟨⟨hHead, hNodup⟩, hNew, hRest⟩
    exact ⟨hNew, hNodup, fun i hi => ⟨fun h => hHead (h ▸ hi), hRest i hi⟩⟩
  · rintro ⟨hNew, hNodup, hRest⟩
    exact ⟨⟨fun h => (hRest _ h).1 rfl, hNodup⟩, hNew, fun i hi => (hRest i hi).2⟩

theorem fresh_add_iff (p : Progress) (m n : Nat) :
    p.Fresh (m + n) ↔ p.Fresh m ∧ (p.afterDraws m).Fresh n := by
  simp only [Fresh, draws_add, List.nodup_append, List.mem_append]
  have hIssued : ∀ i, i ∈ (p.afterDraws m).issued ↔ i ∈ p.draws m ∨ i ∈ p.issued := by
    simp [afterDraws]
  simp only [hIssued, not_or]
  constructor
  · rintro ⟨⟨hFirst, hSecond, hApart⟩, hNew⟩
    exact ⟨⟨hFirst, fun i hi => hNew i (.inl hi)⟩, hSecond,
      fun i hi => ⟨fun h => hApart i h i hi rfl, hNew i (.inr hi)⟩⟩
  · rintro ⟨⟨hFirst, hNew⟩, hSecond, hRest⟩
    refine ⟨⟨hFirst, hSecond, ?_⟩, ?_⟩
    · rintro i hi j hj rfl
      exact (hRest i hj).1 hi
    · rintro i (hi | hi)
      · exact hNew i hi
      · exact (hRest i hi).2

/-- At the start of a batch, identifiers only have to differ from each other. -/
theorem fresh_newBatch_iff (p : Progress) (n : Nat) :
    p.newBatch.Fresh n ↔ (p.draws n).Nodup := by
  simp [Fresh, newBatch, draws]

end Progress

namespace RunStep

theorem assign_of_new {p : Progress} (h : p.identifiers.get 0 ∉ p.issued) :
    assign p = (.ok (p.identifiers.get 0), p.afterDraws 1) := by
  simp [assign, h, Progress.afterDraws, Progress.draws]

theorem assign_of_issued {p : Progress} (h : p.identifiers.get 0 ∈ p.issued) :
    assign p = (.error (.ofProblem (.repeatedIdentifier (p.identifiers.get 0))),
      { p with identifiers := p.identifiers.drop 1 }) := by
  simp [assign, h]

theorem assignMany_of_fresh {p : Progress} {n : Nat} (h : p.Fresh n) :
    assignMany n p = (.ok (p.draws n), p.afterDraws n) := by
  induction n generalizing p with
  | zero => rfl
  | succ n ih =>
    obtain ⟨hNew, hRest⟩ := (p.fresh_succ_iff n).mp h
    rw [assignMany, bind_of_ok (assign_of_new hNew), bind_of_ok (ih hRest), pure_apply,
      p.draws_succ n, p.afterDraws_succ n]

/-- What is issued is the next items of the supply, and only if they are fresh. -/
theorem assignMany_eq_ok_iff {p q : Progress} {n : Nat} {ids : List Identifier} :
    assignMany n p = (.ok ids, q) ↔ p.Fresh n ∧ ids = p.draws n ∧ q = p.afterDraws n := by
  constructor
  · intro h
    have hFresh : p.Fresh n := by
      induction n generalizing p q ids with
      | zero => exact p.fresh_zero
      | succ n ih =>
        rw [assignMany, bind_eq_ok_iff] at h
        obtain ⟨i, p', hAssign, h⟩ := h
        obtain ⟨rest, q', hRest, -⟩ := bind_eq_ok_iff.mp h
        by_cases hIssued : p.identifiers.get 0 ∈ p.issued
        · rw [assign_of_issued hIssued] at hAssign
          cases hAssign
        · rw [assign_of_new hIssued] at hAssign
          cases hAssign
          exact (p.fresh_succ_iff n).mpr ⟨hIssued, ih hRest⟩
    rw [assignMany_of_fresh hFresh] at h
    cases h
    exact ⟨hFresh, rfl, rfl⟩
  · rintro ⟨hFresh, rfl, rfl⟩
    exact assignMany_of_fresh hFresh

theorem assignMany_succ_eq_error_iff {p q : Progress} {n : Nat} {e : Error}
    (hNew : p.identifiers.get 0 ∉ p.issued) :
    assignMany (n + 1) p = (.error e, q) ↔ assignMany n (p.afterDraws 1) = (.error e, q) := by
  rw [assignMany, bind_of_ok (assign_of_new hNew), bind_eq_error_iff]
  constructor
  · rintro (h | ⟨rest, r, -, h⟩)
    · exact h
    · cases h
  · exact .inl

/-- A draw stops at the first identifier that is not new, which is drawn all the same. -/
theorem assignMany_eq_error_iff {p q : Progress} {n : Nat} {e : Error} :
    assignMany n p = (.error e, q) ↔ ∃ k < n, p.Fresh k ∧
      p.identifiers.get k ∈ (p.afterDraws k).issued ∧
      e = .ofProblem (.repeatedIdentifier (p.identifiers.get k)) ∧
      q = { p.afterDraws k with identifiers := p.identifiers.drop (k + 1) } := by
  induction n generalizing p with
  | zero =>
    constructor
    · intro h
      cases h
    · rintro ⟨k, hk, -⟩
      omega
  | succ n ih =>
    by_cases hIssued : p.identifiers.get 0 ∈ p.issued
    · rw [assignMany, bind_of_error (assign_of_issued hIssued)]
      constructor
      · intro h
        cases h
        exact ⟨0, by omega, p.fresh_zero, hIssued, rfl, rfl⟩
      · rintro ⟨k, -, hFresh, -, rfl, rfl⟩
        cases k with
        | zero => rfl
        | succ k => exact absurd hIssued ((p.fresh_succ_iff k).mp hFresh).1
    · rw [assignMany_succ_eq_error_iff hIssued, ih]
      constructor
      · rintro ⟨k, hk, hFresh, hGet, rfl, rfl⟩
        rw [p.get_afterDraws_one, ← p.afterDraws_succ] at hGet
        refine ⟨k + 1, by omega, (p.fresh_succ_iff k).mpr ⟨hIssued, hFresh⟩, hGet, ?_, ?_⟩
        · rw [p.get_afterDraws_one]
        · rw [p.drop_afterDraws_one, ← p.afterDraws_succ]
      · rintro ⟨k, hk, hFresh, hGet, rfl, rfl⟩
        cases k with
        | zero => exact absurd hGet hIssued
        | succ k =>
          rw [p.afterDraws_succ, ← p.get_afterDraws_one] at hGet
          refine ⟨k, by omega, ((p.fresh_succ_iff k).mp hFresh).2, hGet, ?_, ?_⟩
          · rw [p.get_afterDraws_one]
          · rw [p.drop_afterDraws_one, ← p.afterDraws_succ]

end RunStep
end SeedScript
