import SeedScript.Proofs.Compilation
import SeedScript.Request
import Mathlib.Data.Finset.Card

/-!
# Requests of one batch

Requests for identifiers follow each other in a batch, in any order and number. A request either fails
before it draws anything, or it draws what it asks for up to the first identifier that the batch has drawn
before. So what is issued is what was drawn without its repetitions, and no identifier is returned twice.
-/

namespace SeedScript

namespace Request

open RunStep

/-- Some bank of the request has no country. -/
def Refused : Request → Prop
  | banks records resolver _ => ∃ b ∈ records, ∀ u, resolver.find b.countryDiscriminator ≠ .ok u
  | _ => False

/-- All that a request can do. -/
inductive Outcome (request : Request) (p : Progress) :
    Except Error (List Identifier) → Progress → Prop
  | refused {f : Failure} : request.Refused → f.problem.type = "DatasetError" →
      f.stage = .compile → Outcome request p (.error f) p
  | granted {q : Progress} : ¬ request.Refused → p.Fresh request.size →
      q.identifiers = p.identifiers.drop request.size →
      q.issued = (p.draws request.size).reverse ++ p.issued →
      Outcome request p (.ok (p.draws request.size)) q
  | repeated {k : Nat} {q : Progress} : ¬ request.Refused → k < request.size → p.Fresh k →
      p.identifiers.get k ∈ (p.afterDraws k).issued →
      q.identifiers = p.identifiers.drop (k + 1) → q.issued = (p.afterDraws k).issued →
      Outcome request p (.error (.ofProblem (.repeatedIdentifier (p.identifiers.get k)))) q

variable {p q : Progress}

theorem run_one_eq (p : Progress) : run one p = assignMany 1 p := by
  rcases h : assign p with ⟨e | i, q⟩
  · rw [run, bind_of_error h, assignMany, bind_of_error h]
  · rw [run, bind_of_ok h, assignMany, bind_of_ok h]
    rfl

theorem refused_banks_iff {records : List BankRecord} {resolver : Resolver} {fullReseed : Bool} :
    (banks records resolver fullReseed).Refused ↔ ∃ f : Failure,
      resolver.resolveAll (records.map BankRecord.countryDiscriminator) = .error f ∧
        f.problem.type = "DatasetError" ∧ f.stage = .compile := by
  constructor
  · rintro ⟨b, hb, hNone⟩
    cases hResolve : resolver.resolveAll (records.map BankRecord.countryDiscriminator) with
    | ok found =>
      obtain ⟨j, hj⟩ := List.mem_iff_getElem?.mp hb
      obtain ⟨u, -, hFind⟩ := (Resolver.resolveAll_map_eq_ok_iff.mp hResolve).2 j b hj
      exact absurd hFind (hNone u)
    | error e =>
      obtain ⟨f, rfl, hType, hStage⟩ := Resolver.failure_of_resolveAll hResolve
      exact ⟨f, rfl, hType, hStage⟩
  · rintro ⟨f, hResolve, -, -⟩
    obtain ⟨j, b, hb, hError, -⟩ := Resolver.resolveAll_map_eq_error_iff.mp hResolve
    obtain ⟨why, hFind, -⟩ := Resolver.resolve_eq_error_iff.mp hError
    refine ⟨b, List.mem_of_getElem? hb, fun u hu => ?_⟩
    rw [hFind] at hu
    cases hu

theorem resolved_of_not_refused {records : List BankRecord} {resolver : Resolver} {fullReseed : Bool}
    (h : ¬ (banks records resolver fullReseed).Refused) :
    ∃ found, resolver.resolveAll (records.map BankRecord.countryDiscriminator) = .ok found := by
  cases hResolve : resolver.resolveAll (records.map BankRecord.countryDiscriminator) with
  | ok found => exact ⟨found, rfl⟩
  | error e =>
    obtain ⟨f, rfl, hType, hStage⟩ := Resolver.failure_of_resolveAll hResolve
    exact absurd (refused_banks_iff.mpr ⟨f, hResolve, hType, hStage⟩) h

/-- What a request does that draws its identifiers and does no more that could fail. -/
theorem outcome_of_draws (request : Request) {result : Except Error (List Identifier)}
    (hRefused : ¬ request.Refused)
    (hOk : p.Fresh request.size → result = .ok (p.draws request.size) ∧
      q.identifiers = p.identifiers.drop request.size ∧
      q.issued = (p.draws request.size).reverse ++ p.issued)
    (hError : ∀ e r, assignMany request.size p = (.error e, r) → result = .error e ∧ q = r) :
    request.Outcome p result q := by
  rcases h : assignMany request.size p with ⟨e | ids, r⟩
  · obtain ⟨rfl, rfl⟩ := hError e r h
    obtain ⟨k, hk, hFresh, hIssued, rfl, rfl⟩ := assignMany_eq_error_iff.mp h
    exact .repeated hRefused hk hFresh hIssued rfl rfl
  · obtain ⟨hFresh, -, -⟩ := assignMany_eq_ok_iff.mp h
    obtain ⟨rfl, hIdentifiers, hIssued⟩ := hOk hFresh
    exact .granted hRefused hFresh hIdentifiers hIssued

theorem outcome_run (request : Request) (p : Progress) :
    request.Outcome p (request.run p).1 (request.run p).2 := by
  cases request with
  | one =>
    rw [run_one_eq]
    apply outcome_of_draws one id
    · intro hFresh
      have hFresh : p.Fresh 1 := hFresh
      rw [assignMany_of_fresh hFresh]
      exact ⟨rfl, rfl, rfl⟩
    · intro e r h
      have h : assignMany 1 p = (.error e, r) := h
      rw [h]
      exact ⟨rfl, rfl⟩
  | several n =>
    apply outcome_of_draws (several n) id
    · intro hFresh
      have hFresh : p.Fresh n := hFresh
      rw [run, assignMany_of_fresh hFresh]
      exact ⟨rfl, rfl, rfl⟩
    · intro e r h
      have h : assignMany n p = (.error e, r) := h
      rw [run, h]
      exact ⟨rfl, rfl⟩
  | countries records fullReseed =>
    apply outcome_of_draws (countries records fullReseed) id
    · intro hFresh
      rw [run, bind_of_ok (compileCountries_of_fresh hFresh fullReseed)]
      exact ⟨rfl, rfl, rfl⟩
    · intro e r h
      rw [run, bind_of_error (compileCountries_of_error h fullReseed)]
      exact ⟨rfl, rfl⟩
  | banks records resolver fullReseed =>
    by_cases hRefused : (banks records resolver fullReseed).Refused
    · obtain ⟨f, hResolve, hType, hStage⟩ := refused_banks_iff.mp hRefused
      rw [run, bind_of_error (compileBanks_of_unresolved hResolve fullReseed p)]
      exact .refused hRefused hType hStage
    · obtain ⟨found, hResolve⟩ := resolved_of_not_refused hRefused
      apply outcome_of_draws (banks records resolver fullReseed) hRefused
      · intro hFresh
        rw [run, bind_of_ok (compileBanks_of_resolved hResolve hFresh fullReseed)]
        exact ⟨rfl, rfl, rfl⟩
      · intro e r h
        rw [run, bind_of_error (compileBanks_of_repeated hResolve h fullReseed)]
        exact ⟨rfl, rfl⟩

theorem runAll_concat (requests : List Request) (request : Request) (p : Progress) :
    runAll (requests ++ [request]) p =
      ((runAll requests p).1 ++ [(request.run (runAll requests p).2).1],
        (request.run (runAll requests p).2).2) := by
  rw [runAll, List.foldl_append]
  rfl

/-- The identifiers that successful requests have returned. -/
def returned (results : List (Except Error (List Identifier))) : List Identifier :=
  results.flatMap fun result => result.toOption.getD []

theorem returned_concat (results : List (Except Error (List Identifier)))
    (result : Except Error (List Identifier)) :
    returned (results ++ [result]) = returned results ++ result.toOption.getD [] := by
  simp [returned]

end Request

/-- A batch that started at `p` has drawn `m` identifiers and returned some of them: what is issued is
what was drawn, each once. -/
structure Batch (p q : Progress) (m : Nat) (returned : List Identifier) : Prop where
  identifiers : q.identifiers = p.identifiers.drop m
  nodup_issued : q.issued.Nodup
  mem_issued_iff : ∀ i, i ∈ q.issued ↔ i ∈ p.draws m
  nodup_returned : returned.Nodup
  subset_issued : returned ⊆ q.issued

namespace Batch

variable {p q r : Progress} {m : Nat} {ids : List Identifier}

theorem start (p : Progress) : Batch p p.newBatch 0 [] where
  identifiers := rfl
  nodup_issued := List.nodup_nil
  mem_issued_iff _ := Iff.rfl
  nodup_returned := List.nodup_nil
  subset_issued := List.nil_subset _

theorem get (h : Batch p q m ids) (j : Nat) : q.identifiers.get j = p.identifiers.get (m + j) := by
  rw [h.identifiers, Supply.get_drop]

theorem draws (h : Batch p q m ids) (k : Nat) :
    q.draws k = (List.range k).map fun j => p.identifiers.get (m + j) :=
  List.map_congr_left fun j _ => h.get j

theorem draws_add (h : Batch p q m ids) (k : Nat) : p.draws (m + k) = p.draws m ++ q.draws k := by
  rw [p.draws_add, h.draws]
  congr 1
  apply List.map_congr_left
  intro j _
  exact p.identifiers.get_drop m j

theorem mem_issued_afterDraws_iff (h : Batch p q m ids) (k : Nat) (i : Identifier) :
    i ∈ (q.afterDraws k).issued ↔ i ∈ p.draws (m + k) := by
  simp [Progress.afterDraws, h.mem_issued_iff, h.draws_add, or_comm]

theorem nodup_issued_afterDraws (h : Batch p q m ids) {k : Nat} (hFresh : q.Fresh k) :
    (q.afterDraws k).issued.Nodup := by
  refine List.nodup_append.mpr ⟨List.nodup_reverse.mpr hFresh.1, h.nodup_issued, ?_⟩
  rintro i hi j hj rfl
  exact hFresh.2 i (List.mem_reverse.mp hi) hj

/-- Whether the first draws of a request are new is a matter of the whole batch. -/
theorem get_not_mem_of_fresh (h : Batch p q m ids) {k j : Nat} (hFresh : q.Fresh k) (hj : j < k) :
    p.identifiers.get (m + j) ∉ p.draws (m + j) := by
  obtain ⟨n, rfl⟩ : ∃ n, k = j + (n + 1) := ⟨k - j - 1, by omega⟩
  have hRest := ((q.fresh_add_iff j (n + 1)).mp hFresh).2
  have hNew := ((Progress.fresh_succ_iff _ n).mp hRest).1
  rw [h.mem_issued_afterDraws_iff] at hNew
  have hGet : (q.afterDraws j).identifiers.get 0 = p.identifiers.get (m + j) :=
    (q.identifiers.get_drop j 0).trans (h.get j)
  rwa [hGet] at hNew

theorem granted (h : Batch p q m ids) {k : Nat} (hFresh : q.Fresh k)
    (hIdentifiers : r.identifiers = q.identifiers.drop k)
    (hIssued : r.issued = (q.afterDraws k).issued) : Batch p r (m + k) (ids ++ q.draws k) where
  identifiers := by rw [hIdentifiers, h.identifiers, Supply.drop_drop]
  nodup_issued := by
    rw [hIssued]
    exact h.nodup_issued_afterDraws hFresh
  mem_issued_iff i := by rw [hIssued, h.mem_issued_afterDraws_iff]
  nodup_returned := by
    refine List.nodup_append.mpr ⟨h.nodup_returned, hFresh.1, ?_⟩
    rintro i hi j hj rfl
    exact hFresh.2 i hj (h.subset_issued hi)
  subset_issued := by
    intro i hi
    rw [hIssued]
    rcases List.mem_append.mp hi with hi | hi
    · exact List.mem_append_right _ (h.subset_issued hi)
    · exact List.mem_append_left _ (List.mem_reverse.mpr hi)

/-- What is drawn again is issued already, so it changes only what is drawn. -/
theorem repeated (h : Batch p q m ids) {k : Nat} (hFresh : q.Fresh k)
    (hOld : p.identifiers.get (m + k) ∈ p.draws (m + k))
    (hIdentifiers : r.identifiers = q.identifiers.drop (k + 1))
    (hIssued : r.issued = (q.afterDraws k).issued) : Batch p r (m + (k + 1)) ids where
  identifiers := by rw [hIdentifiers, h.identifiers, Supply.drop_drop]
  nodup_issued := by
    rw [hIssued]
    exact h.nodup_issued_afterDraws hFresh
  mem_issued_iff i := by
    have hDraws : p.draws (m + (k + 1)) = p.draws (m + k) ++ [p.identifiers.get (m + k)] := by
      rw [← Nat.add_assoc, Progress.draws, List.range_succ, List.map_append]
      rfl
    rw [hIssued, h.mem_issued_afterDraws_iff, hDraws, List.mem_append, List.mem_singleton]
    constructor
    · exact .inl
    · rintro (hi | rfl)
      · exact hi
      · exact hOld
  nodup_returned := h.nodup_returned
  subset_issued := by
    intro i hi
    rw [hIssued]
    exact List.mem_append_right _ (h.subset_issued hi)

end Batch

namespace Request

variable {p q r : Progress} {m n : Nat} {ids : List Identifier} {request : Request}
  {result : Except Error (List Identifier)}

/-- The answer to a request in a batch that started at `p` and has drawn `m` identifiers: the request
draws `n` more. -/
structure Answered (p : Progress) (m n : Nat) (request : Request)
    (result : Except Error (List Identifier)) : Prop where
  granted : ∀ ids, result = .ok ids →
    n = request.size ∧ ids = (List.range n).map fun j => p.identifiers.get (m + j)
  repeated_iff : (∃ f : Failure, result = .error f ∧ f.problem.type = "SeedError" ∧
      f.stage = .compile) ↔ ∃ j < n, p.identifiers.get (m + j) ∈ p.draws (m + j)
  stops : ∀ j < n, p.identifiers.get (m + j) ∈ p.draws (m + j) → j + 1 = n
  refused_iff : (∃ f : Failure, result = .error f ∧ f.problem.type = "DatasetError" ∧
      f.stage = .compile) ↔ request.Refused
  failed : ∀ e, result = .error e → ∃ f : Failure, e = f ∧
    (f.problem.type = "SeedError" ∨ f.problem.type = "DatasetError") ∧ f.stage = .compile

theorem answered_of_refused (hRefused : request.Refused) {f : Failure}
    (hType : f.problem.type = "DatasetError") (hStage : f.stage = .compile) :
    request.Answered p m 0 (.error f) where
  granted := by rintro _ ⟨⟩
  repeated_iff := by
    constructor
    · rintro ⟨_, ⟨⟩, hSeed, -⟩
      rw [hType] at hSeed
      exact absurd hSeed (by decide)
    · rintro ⟨j, hj, -⟩
      omega
  stops := by
    intro j hj
    omega
  refused_iff := ⟨fun _ => hRefused, fun _ => ⟨f, rfl, hType, hStage⟩⟩
  failed := by
    rintro _ ⟨⟩
    exact ⟨f, rfl, .inr hType, hStage⟩

theorem answered_of_granted (hRefused : ¬ request.Refused) (hSize : n = request.size)
    (hIds : ids = (List.range n).map fun j => p.identifiers.get (m + j))
    (hNew : ∀ j < n, p.identifiers.get (m + j) ∉ p.draws (m + j)) :
    request.Answered p m n (.ok ids) where
  granted := by
    rintro _ ⟨⟩
    exact ⟨hSize, hIds⟩
  repeated_iff := by
    constructor
    · rintro ⟨_, ⟨⟩, -⟩
    · rintro ⟨j, hj, hOld⟩
      exact absurd hOld (hNew j hj)
  stops := by
    intro j hj hOld
    exact absurd hOld (hNew j hj)
  refused_iff := by
    constructor
    · rintro ⟨_, ⟨⟩, -⟩
    · intro h
      exact absurd h hRefused
  failed := by rintro _ ⟨⟩

theorem answered_of_repeated (hRefused : ¬ request.Refused) (i : Identifier)
    (hNew : ∀ j < n, p.identifiers.get (m + j) ∉ p.draws (m + j))
    (hOld : p.identifiers.get (m + n) ∈ p.draws (m + n)) :
    request.Answered p m (n + 1) (.error (.ofProblem (.repeatedIdentifier i))) where
  granted := by rintro _ ⟨⟩
  repeated_iff := ⟨fun _ => ⟨n, by omega, hOld⟩, fun _ => ⟨_, rfl, rfl, rfl⟩⟩
  stops := by
    intro j hj hAgain
    by_contra hne
    exact hNew j (by omega) hAgain
  refused_iff := by
    constructor
    · rintro ⟨_, ⟨⟩, hType, -⟩
      have hType : "SeedError" = "DatasetError" := hType
      exact absurd hType (by decide)
    · intro h
      exact absurd h hRefused
  failed := by
    rintro _ ⟨⟩
    exact ⟨_, rfl, .inl rfl, rfl⟩

/-- One request keeps the batch, whatever comes of it. -/
theorem Outcome.batch (hBatch : Batch p q m ids) (h : request.Outcome q result r) :
    ∃ n, Batch p r (m + n) (ids ++ result.toOption.getD []) ∧ request.Answered p m n result ∧
      (request.Refused → n = 0 ∧ r = q) := by
  cases h with
  | refused hRefused hType hStage =>
    refine ⟨0, ?_, answered_of_refused hRefused hType hStage, fun _ => ⟨rfl, rfl⟩⟩
    simpa [Except.toOption] using hBatch
  | granted hRefused hFresh hIdentifiers hIssued =>
    have hNew := fun j hj => hBatch.get_not_mem_of_fresh (j := j) hFresh hj
    exact ⟨request.size, hBatch.granted hFresh hIdentifiers hIssued,
      answered_of_granted hRefused rfl (hBatch.draws _) hNew, fun h => absurd h hRefused⟩
  | @repeated k _ hRefused _ hFresh hOld hIdentifiers hIssued =>
    rw [hBatch.mem_issued_afterDraws_iff, hBatch.get] at hOld
    have hNew := fun j hj => hBatch.get_not_mem_of_fresh (j := j) hFresh hj
    refine ⟨k + 1, ?_, answered_of_repeated hRefused _ hNew hOld, fun h => absurd h hRefused⟩
    simpa [Except.toOption] using hBatch.repeated hFresh hOld hIdentifiers hIssued

theorem batch_runAll (requests : List Request) (p : Progress) :
    ∃ m, Batch p (runAll requests p.newBatch).2 m (returned (runAll requests p.newBatch).1) := by
  -- the last request is carried out in the batch that the others have left
  induction requests using List.reverseRecOn with
  | nil => exact ⟨0, .start p⟩
  | append_singleton requests request ih =>
    obtain ⟨m, hBatch⟩ := ih
    obtain ⟨n, hNext, -, -⟩ := Outcome.batch hBatch (request.outcome_run _)
    rw [runAll_concat, returned_concat]
    exact ⟨m + n, hNext⟩

/-- Whatever is asked for in a batch, no identifier is returned twice, and as many are issued as
different ones have been drawn. A request fails with an error of its own exactly when it draws an
identifier that was drawn before, and it stops there. Banks of which one has no country are refused
without a draw, and a request that succeeds draws as many identifiers as it asks for. -/
theorem runAll_answers (requests : List Request) (p : Progress) :
    ∃ m, (runAll requests p.newBatch).2.identifiers = p.identifiers.drop m ∧
      (returned (runAll requests p.newBatch).1).Nodup ∧
      (runAll requests p.newBatch).2.issued.length = (p.draws m).toFinset.card ∧
      ∀ request : Request, ∃ n,
        (request.run (runAll requests p.newBatch).2).2.identifiers = p.identifiers.drop (m + n) ∧
        request.Answered p m n (request.run (runAll requests p.newBatch).2).1 ∧
        (request.Refused → n = 0 ∧
          (request.run (runAll requests p.newBatch).2).2 = (runAll requests p.newBatch).2) := by
  obtain ⟨m, hBatch⟩ := batch_runAll requests p
  refine ⟨m, hBatch.identifiers, hBatch.nodup_returned, ?_, fun request => ?_⟩
  · rw [← List.toFinset_card_of_nodup hBatch.nodup_issued]
    congr 1
    ext i
    simp only [List.mem_toFinset, hBatch.mem_issued_iff]
  · obtain ⟨n, hNext, hAnswered, hRefused⟩ := Outcome.batch hBatch (request.outcome_run _)
    exact ⟨n, hNext.identifiers, hAnswered, hRefused⟩

end Request
end SeedScript
