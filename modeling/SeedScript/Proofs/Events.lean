import SeedScript.Job
import SeedScript.Proofs.Batch

/-!
# The events of jobs

Whatever becomes of a job, all that it reports are events with one of five names.
-/

namespace SeedScript

open Files (Tree)

namespace RunStep

variable {α β : Type} {x : RunStep α} {f : α → RunStep β} {Q : Log.Event → Prop}

/-- A step adds events to those that are there, and whether it fails or not, these are such events. -/
def Reports (x : RunStep α) (Q : Log.Event → Prop) : Prop :=
  ∀ ⦃p r q⦄, x p = (r, q) → ∃ events, q.events = p.events ++ events ∧ ∀ e ∈ events, Q e

/-- A step without events. -/
def Silent (x : RunStep α) : Prop :=
  ∀ p, (x p).2.events = p.events

theorem silent_ofResult (r : Except Error α) : Silent (ofResult r) := fun _ => rfl

theorem silent_assignMany (n : Nat) : Silent (assignMany n) := by
  intro p
  rcases h : assignMany n p with ⟨e | ids, q⟩
  · obtain ⟨k, -, -, -, -, rfl⟩ := assignMany_eq_error_iff.mp h
    rfl
  · obtain ⟨-, -, rfl⟩ := assignMany_eq_ok_iff.mp h
    rfl

theorem Silent.reports (h : Silent x) : Reports x Q := by
  intro p r q hx
  have hEvents := h p
  rw [hx] at hEvents
  exact ⟨[], by rw [List.append_nil, ← hEvents], List.forall_mem_nil _⟩

theorem Reports.bind (hx : Reports x Q) (hf : ∀ a, Reports (f a) Q) : Reports (x >>= f) Q := by
  intro p r q h
  rcases hFirst : x p with ⟨e | a, p'⟩
  · rw [bind_of_error hFirst] at h
    cases h
    exact hx hFirst
  · rw [bind_of_ok hFirst] at h
    obtain ⟨first, hStart, hQ⟩ := hx hFirst
    obtain ⟨rest, hEnd, hQ'⟩ := hf a h
    refine ⟨first ++ rest, by rw [hEnd, hStart, List.append_assoc], ?_⟩
    intro e he
    rcases List.mem_append.mp he with he | he
    · exact hQ e he
    · exact hQ' e he

theorem reports_pure (a : α) : Reports (pure a) Q := Silent.reports fun _ => rfl

theorem reports_ofResult (r : Except Error α) : Reports (ofResult r) Q :=
  (silent_ofResult r).reports

theorem reports_report {e : Log.Event} (h : Q e) : Reports (report e) Q := by
  intro p r q hx
  cases hx
  exact ⟨[e], rfl, List.forall_mem_singleton.mpr h⟩

end RunStep

open RunStep

/-- The events of jobs. -/
def jobEvents : List String :=
  ["dataset_loaded", "statements_compiled", "script_written", "identifiers_exported",
    "seed_job_completed"]

def IsJobEvent (e : Log.Event) : Prop :=
  e.name ∈ jobEvents

namespace Dataset

theorem isJobEvent_loaded (dataset path : String) (n : Nat) : IsJobEvent (loaded dataset path n) := by
  simp [IsJobEvent, jobEvents, loaded]

variable (tree : Tree) (path : String)

theorem reports_loadCountries : Reports (loadCountries tree path) IsJobEvent := by
  refine (reports_ofResult _).bind fun v => ?_
  cases v with
  | array entries =>
    refine (reports_ofResult _).bind fun records => ?_
    exact (reports_report (isJobEvent_loaded _ _ _)).bind fun _ => reports_pure _
  | _ => exact reports_ofResult _

theorem silent_sourceFor (names : Option NameSource) (entries : List Json) :
    Silent (sourceFor names entries) := by
  intro p
  unfold sourceFor
  cases names with
  | some source => rfl
  | none => split <;> rfl

theorem silent_nameBanks (entries : List Json) (source : NameSource) :
    Silent (nameBanks path entries source) := by
  intro p
  cases source <;> rfl

theorem reports_loadBanks (names : Option NameSource) :
    Reports (loadBanks tree path names) IsJobEvent := by
  refine (reports_ofResult _).bind fun v => ?_
  cases entries? v with
  | none => exact reports_ofResult _
  | some entries =>
    refine (silent_sourceFor names entries).reports.bind fun source => ?_
    refine (silent_nameBanks path entries source).reports.bind fun records => ?_
    exact (reports_report (isJobEvent_loaded _ _ _)).bind fun _ => reports_pure _

end Dataset

theorem isJobEvent_compiled (s : StatementSet) (detail : String × Json) :
    IsJobEvent (s.compiled detail) := by
  simp [IsJobEvent, jobEvents, StatementSet.compiled]

theorem reports_compileCountries (records : List CountryRecord) (fullReseed : Bool) :
    Reports (compileCountries records fullReseed) IsJobEvent := by
  refine (silent_assignMany _).reports.bind fun ids => (reports_ofResult _).bind fun s => ?_
  exact (reports_report (isJobEvent_compiled _ _)).bind fun _ => reports_pure _

theorem reports_compileBanks (records : List BankRecord) (r : Resolver) (fullReseed : Bool) :
    Reports (compileBanks records r fullReseed) IsJobEvent := by
  refine (reports_ofResult _).bind fun countries => (silent_assignMany _).reports.bind fun ids => ?_
  refine (reports_ofResult _).bind fun s => ?_
  exact (reports_report (isJobEvent_compiled _ _)).bind fun _ => reports_pure _

theorem reports_compileSeed (countries : List CountryRecord) (banks : List BankRecord)
    (fullReseed : Bool) : Reports (compileSeed countries banks fullReseed) IsJobEvent := by
  refine (reports_compileCountries countries fullReseed).bind fun s => ?_
  refine (reports_ofResult _).bind fun r => ?_
  exact (reports_compileBanks banks r fullReseed).bind fun t => reports_pure _

namespace Output

theorem isJobEvent_written (o : Output) : IsJobEvent o.written := by
  unfold written
  cases o.product <;> simp [IsJobEvent, jobEvents, Log.Logger.event]

theorem isJobEvent_of_writeAll {tree : Tree} {outputs : List Output} {e : Log.Event}
    (h : e ∈ (writeAll tree outputs).2.1) : IsJobEvent e := by
  induction outputs generalizing tree with
  | nil => cases h
  | cons o outputs ih =>
    rcases hWrite : o.write tree with ⟨e' | u, tree'⟩
    · rw [writeAll_of_error hWrite] at h
      cases h
    · rw [writeAll_of_ok hWrite] at h
      rcases List.mem_cons.mp h with rfl | h
      · exact isJobEvent_written o
      · exact ih h

end Output

namespace Job

variable {tree : Tree} {fullReseed : Bool} {job : Job} {p q : Progress}

theorem reports_prepare (job : Job) (tree : Tree) (fullReseed : Bool) :
    Reports (job.prepare tree fullReseed) IsJobEvent := by
  cases job with
  | countries input output identifiersOutput =>
    refine (Dataset.reports_loadCountries tree input).bind fun records => ?_
    exact (reports_compileCountries records fullReseed).bind fun _ => reports_pure _
  | banks input output names =>
    refine (Dataset.reports_loadBanks tree input names).bind fun records => ?_
    exact (reports_compileBanks records {} fullReseed).bind fun _ => reports_pure _
  | all countriesInput banksInput countriesOutput banksOutput identifiersOutput names =>
    refine (Dataset.reports_loadCountries tree countriesInput).bind fun countries => ?_
    refine (Dataset.reports_loadBanks tree banksInput names).bind fun banks => ?_
    exact (reports_compileSeed countries banks fullReseed).bind fun _ => reports_pure _

theorem isJobEvent_completed (context fields : Log.Fields) : IsJobEvent (completed context fields) := by
  simp [IsJobEvent, jobEvents, completed, Log.Logger.event]

theorem isJobEvent_of_prepare {prepared : Prepared}
    (h : job.prepare tree fullReseed p = (.ok prepared, q)) : IsJobEvent prepared.completed := by
  cases job with
  | countries input output identifiersOutput =>
    obtain ⟨records, _, -, h⟩ := bind_eq_ok_iff.mp h
    obtain ⟨s, _, -, h⟩ := bind_eq_ok_iff.mp h
    cases h
    exact isJobEvent_completed _ _
  | banks input output names =>
    obtain ⟨records, _, -, h⟩ := bind_eq_ok_iff.mp h
    obtain ⟨s, _, -, h⟩ := bind_eq_ok_iff.mp h
    cases h
    exact isJobEvent_completed _ _
  | all countriesInput banksInput countriesOutput banksOutput identifiersOutput names =>
    obtain ⟨countries, _, -, h⟩ := bind_eq_ok_iff.mp h
    obtain ⟨banks, _, -, h⟩ := bind_eq_ok_iff.mp h
    obtain ⟨⟨s, t⟩, _, -, h⟩ := bind_eq_ok_iff.mp h
    cases h
    exact isJobEvent_completed _ _

/-- Whatever becomes of a job, it only adds events of jobs. -/
theorem events_run {r : Except Error (List Outcome)} {tree' : Tree}
    (h : job.run fullReseed tree p = (r, tree', q)) :
    ∃ events, q.events = p.events ++ events ∧ ∀ e ∈ events, IsJobEvent e := by
  rw [run] at h
  rcases hPrepare : job.prepare tree fullReseed p with ⟨e | prepared, p'⟩
  · rw [hPrepare] at h
    cases h
    exact reports_prepare job tree fullReseed hPrepare
  · obtain ⟨first, hFirst, hJob⟩ := reports_prepare job tree fullReseed hPrepare
    have hWritten : ∀ e ∈ (Output.writeAll tree prepared.outputs).2.1, IsJobEvent e :=
      fun e => Output.isJobEvent_of_writeAll
    rw [hPrepare] at h
    rcases hWrite : Output.writeAll tree prepared.outputs with ⟨e | u, written, tree''⟩
    · rw [hWrite] at hWritten
      simp only [hWrite] at h
      cases h
      refine ⟨first ++ written, by rw [hFirst, List.append_assoc], ?_⟩
      exact List.forall_mem_append.mpr ⟨hJob, hWritten⟩
    · rw [hWrite] at hWritten
      simp only [hWrite] at h
      cases h
      refine ⟨first ++ (written ++ [prepared.completed]), ?_, ?_⟩
      · simp only [hFirst, List.append_assoc]
      · have hLast := List.forall_mem_singleton.mpr (isJobEvent_of_prepare hPrepare)
        exact List.forall_mem_append.mpr ⟨hJob, List.forall_mem_append.mpr ⟨hWritten, hLast⟩⟩

end Job
end SeedScript
