import SeedScript.Proofs.Events
import SeedScript.Proofs.Stages

/-!
# Milestones

What a run does one after the other are milestones: a dataset is loaded, a table compiled, an output
written. A step of a run passes the milestones that are ahead of it, in order, and reports each by one
event; when it fails, it is on the way to the first that is missing, and in the stage of that one. Steps
behind each other pass the milestones of each.
-/

namespace SeedScript

open Files (Path Tree)

/-- What a job reports once a part of it is done. -/
inductive Milestone where
  | loaded (dataset : String)
  | compiled (table : String)
  | written (table : String)
  | exported
  | completed
deriving DecidableEq

namespace Milestone

/-- The stage in which a job is on its way to a milestone; nothing fails on the way to the last one. -/
def stage? : Milestone → Option Stage
  | loaded _ => some .load
  | compiled _ => some .compile
  | written _ | exported => some .write
  | completed => none

variable {α β : Type}

/-- How far one comes with these milestones ahead: to the end, or up to one in whose stage one fails. An
error that is no failure has no stage. -/
inductive Reached (ahead : List Milestone) : List Milestone → Except Error α → Prop
  | all {a : α} : Reached ahead ahead (.ok a)
  | upTo {reached rest : List Milestone} {m : Milestone} {e : Error} : ahead = reached ++ m :: rest →
      (∀ f, e = .failure f → m.stage? = some f.stage) → Reached ahead reached (.error e)

variable {ahead later reached : List Milestone} {e : Error} {r : Except Error α}

theorem Reached.before (h : Reached ahead reached (.error e : Except Error α))
    (later : List Milestone) : Reached (ahead ++ later) reached (.error e : Except Error β) := by
  cases h with
  | @upTo _ rest m _ hAhead hStage =>
    have hMore : ahead ++ later = reached ++ m :: (rest ++ later) := by
      rw [hAhead, List.append_assoc, List.cons_append]
    exact .upTo hMore hStage

theorem Reached.behind (h : Reached later reached r) (ahead : List Milestone) :
    Reached (ahead ++ later) (ahead ++ reached) r := by
  cases h with
  | all => exact .all
  | upTo hLater hStage => exact .upTo (by rw [hLater, List.append_assoc]) hStage

theorem Reached.isPrefix (h : Reached ahead reached r) : reached <+: ahead := by
  cases h with
  | all => exact List.prefix_rfl
  | upTo hAhead => exact ⟨_, hAhead.symm⟩

theorem Reached.ok_iff (h : Reached ahead reached r) : (∃ a, r = .ok a) ↔ reached = ahead := by
  cases h with
  | @all a => exact ⟨fun _ => rfl, fun _ => ⟨a, rfl⟩⟩
  | upTo hAhead =>
    constructor
    · rintro ⟨a, ha⟩
      cases ha
    · intro hAll
      rw [← hAll] at hAhead
      have hLength := congrArg List.length hAhead
      simp only [List.length_append, List.length_cons] at hLength
      omega

theorem Reached.missing {f : Failure} (h : Reached ahead reached (.error (.failure f) : Except Error α)) :
    ∃ m rest, ahead = reached ++ m :: rest ∧ m.stage? = some f.stage := by
  cases h with
  | upTo hAhead hStage => exact ⟨_, _, hAhead, hStage f rfl⟩

end Milestone

open Milestone (Reached)

namespace RunStep

variable {α β : Type} {x : RunStep α} {f : α → RunStep β} {event : α → Log.Event} {p : Progress}
  {A : Milestone → Log.Event → Prop} {ahead later : List Milestone} {m : Milestone}

/-- A step that succeeds adds an event about its result, and one that fails adds none. -/
structure Tells (x : RunStep α) (event : α → Log.Event) : Prop where
  ok : ∀ {p a q}, x p = (.ok a, q) → q.events = p.events ++ [event a]
  error : ∀ {p e q}, x p = (.error e, q) → q.events = p.events

theorem tells_report {a : α} {e : Log.Event} (h : event a = e) :
    Tells (report e >>= fun _ => pure a) event where
  ok hx := by
    cases hx
    rw [h]
  error hx := by cases hx

theorem tells_error (e : Error) : Tells (ofResult (.error e)) event where
  ok hx := by cases hx
  error hx := by
    cases hx
    rfl

theorem Silent.tells_bind {event : β → Log.Event} (hx : Silent x) (hf : ∀ a, Tells (f a) event) :
    Tells (x >>= f) event := by
  have hEvents : ∀ {p r q}, x p = (r, q) → q.events = p.events := by
    intro p r q h
    have hp := hx p
    rwa [h] at hp
  constructor
  · intro p b q h
    obtain ⟨a, p', hFirst, hRest⟩ := bind_eq_ok_iff.mp h
    rw [(hf a).ok hRest, hEvents hFirst]
  · intro p e q h
    rcases bind_eq_error_iff.mp h with hFirst | ⟨a, p', hFirst, hRest⟩
    · exact hEvents hFirst
    · rw [(hf a).error hRest, hEvents hFirst]

/-- From a progress a step passes the milestones ahead, in order, as far as it comes, and adds one event
for each. -/
def Passes (p : Progress) (x : RunStep α) (ahead : List Milestone) (A : Milestone → Log.Event → Prop) :
    Prop :=
  ∃ events reached, (x p).2.events = p.events ++ events ∧ List.Forall₂ A reached events ∧
    Reached ahead reached (x p).1

theorem Tells.passes (hx : Tells x event)
    (hFails : FailsWith x fun e => ∀ f, e = .failure f → m.stage? = some f.stage)
    (hA : ∀ a q, x p = (.ok a, q) → A m (event a)) : Passes p x [m] A := by
  rcases h : x p with ⟨e | a, q⟩
  · refine ⟨[], [], ?_, .nil, ?_⟩
    · rw [h, List.append_nil]
      exact hx.error h
    · rw [h]
      exact .upTo rfl (hFails h)
  · refine ⟨[event a], [m], ?_, .cons (hA a q h) .nil, ?_⟩
    · rw [h]
      exact hx.ok h
    · rw [h]
      exact .all

theorem passes_pure (a : α) (p : Progress) : Passes p (pure a) [] A :=
  ⟨[], [], (List.append_nil _).symm, .nil, .all⟩

theorem passes_ofResult_ok (a : α) (p : Progress) : Passes p (ofResult (.ok a)) [] A :=
  ⟨[], [], (List.append_nil _).symm, .nil, .all⟩

theorem Passes.bind (hx : Passes p x ahead A)
    (hf : ∀ a q, x p = (.ok a, q) → Passes q (f a) later A) : Passes p (x >>= f) (ahead ++ later) A := by
  obtain ⟨events, reached, hEvents, hA, hReached⟩ := hx
  rcases h : x p with ⟨e | a, q⟩
  · rw [h] at hEvents hReached
    rw [Passes, bind_of_error h]
    exact ⟨events, reached, hEvents, hA, hReached.before later⟩
  · rw [h] at hEvents hReached
    obtain ⟨events', reached', hEvents', hA', hReached'⟩ := hf a q h
    rw [Passes, bind_of_ok h]
    cases hReached
    refine ⟨events ++ events', ahead ++ reached', ?_, List.rel_append hA hA', hReached'.behind ahead⟩
    rw [hEvents', hEvents, List.append_assoc]

end RunStep

open RunStep

/-! ## Loading and compiling -/

theorem Error.IsOf.stage {e : Error} {stage : Stage} (h : e.IsOf stage) (f : Failure)
    (hf : e = .failure f) : some stage = some f.stage := by
  obtain ⟨f', rfl, rfl⟩ := h
  cases hf
  rfl

namespace Dataset

theorem Limit.ne_failure {tree : Tree} {path : String} {e : Error} (h : Limit tree path e)
    (f : Failure) : e ≠ .failure f := by
  cases h <;> nofun

theorem stage_of_load {tree : Tree} {path : String} {e : Error}
    (h : e.IsOf .load ∨ Limit tree path e) (f : Failure) (hf : e = .failure f) :
    some Stage.load = some f.stage := by
  rcases h with h | h
  · exact h.stage f hf
  · exact absurd hf (h.ne_failure f)

variable (tree : Tree) (path : String)

theorem tells_loadCountries :
    Tells (loadCountries tree path) fun records => loaded "countries" path records.length := by
  refine (silent_ofResult _).tells_bind fun v => ?_
  cases v with
  | array entries => exact (silent_ofResult _).tells_bind fun records => tells_report rfl
  | _ => exact tells_error _

theorem tells_loadBanks (names : Option NameSource) :
    Tells (loadBanks tree path names) fun records => loaded "banks" path records.length := by
  refine (silent_ofResult _).tells_bind fun v => ?_
  cases entries? v with
  | none => exact tells_error _
  | some entries =>
    refine (silent_sourceFor names entries).tells_bind fun source => ?_
    exact (silent_nameBanks path entries source).tells_bind fun records => tells_report rfl

end Dataset

theorem tells_compileCountries (records : List CountryRecord) (fullReseed : Bool) :
    Tells (compileCountries records fullReseed) fun s =>
      s.compiled ("full_reseed", .boolean fullReseed) := by
  refine (silent_assignMany _).tells_bind fun ids => ?_
  exact (silent_ofResult _).tells_bind fun s => tells_report rfl

theorem tells_compileBanks (records : List BankRecord) (r : Resolver) (fullReseed : Bool) :
    Tells (compileBanks records r fullReseed) fun s =>
      s.compiled ("resolved_by_lookup", .boolean r.hasCountries) := by
  refine (silent_ofResult _).tells_bind fun countries => ?_
  refine (silent_assignMany _).tells_bind fun ids => ?_
  exact (silent_ofResult _).tells_bind fun s => tells_report rfl

/-- Compiling both tables passes the milestone of each. -/
theorem passes_compileSeed {countries : List CountryRecord} {banks : List BankRecord}
    {fullReseed : Bool} {p : Progress} {A : Milestone → Log.Event → Prop}
    (hCountries : ∀ s q, compileCountries countries fullReseed p = (.ok s, q) →
      A (.compiled "countries") (s.compiled ("full_reseed", .boolean fullReseed)))
    (hBanks : ∀ s t q r, compileSeed countries banks fullReseed p = (.ok (s, t), q) →
      A (.compiled "banks") (t.compiled ("resolved_by_lookup", .boolean r))) :
    Passes p (compileSeed countries banks fullReseed) [.compiled "countries", .compiled "banks"] A := by
  have hFirst : Passes p (compileCountries countries fullReseed) [.compiled "countries"] A :=
    (tells_compileCountries countries fullReseed).passes
      ((failsWith_compileCountries _ _).mono fun _ => Error.IsOf.stage) hCountries
  refine hFirst.bind fun s q hs => ?_
  have hLength : countries.length = s.identifiers.length := by
    obtain ⟨-, rfl, -⟩ := compileCountries_eq_ok_iff.mp hs
    exact (p.length_draws _).symm
  obtain ⟨r, hr⟩ : ∃ r, Resolver.ofCountries countries s.identifiers (!fullReseed) = .ok r :=
    ⟨_, Resolver.ofCountries_of_length hLength⟩
  rw [hr]
  refine (passes_ofResult_ok r q).bind fun r' q' hr' => ?_
  cases hr'
  have hSecond : Passes q (compileBanks banks r fullReseed) [.compiled "banks"] A := by
    refine (tells_compileBanks banks r fullReseed).passes
      ((failsWith_compileBanks _ _ _).mono fun _ => Error.IsOf.stage) fun t u ht => ?_
    have hSeed : compileSeed countries banks fullReseed p = (.ok (s, t), u) := by
      refine (bind_of_ok hs).trans ?_
      rw [hr]
      exact (bind_of_ok (ofResult_apply _ _)).trans (bind_of_ok ht)
    exact hBanks s t u _ hSeed
  exact hSecond.bind fun t u _ => passes_pure _ _

/-! ## Writing -/

namespace Output

def milestone (o : Output) : Milestone :=
  match o.product with
  | .script => .written o.set.table
  | .identifiers => .exported

/-- Outputs are written, and reported, in order up to one that cannot be written. -/
theorem reached_writeAll {A : Milestone → Log.Event → Prop} {outputs : List Output}
    (hA : ∀ o ∈ outputs, A o.milestone o.written) (tree : Tree) :
    ∃ reached, List.Forall₂ A reached (writeAll tree outputs).2.1 ∧
      Reached (outputs.map milestone) reached (writeAll tree outputs).1 := by
  induction outputs generalizing tree with
  | nil => exact ⟨[], .nil, .all⟩
  | cons o outputs ih =>
    obtain ⟨ho, hRest⟩ := List.forall_mem_cons.mp hA
    rcases hWrite : o.write tree with ⟨e | u, tree'⟩
    · rw [writeAll_of_error hWrite]
      refine ⟨[], .nil, .upTo (List.nil_append _).symm fun f hf => ?_⟩
      rcases write_error hWrite with hStage | ⟨rfl, -⟩
      · rw [milestone]
        cases o.product <;> exact hStage.stage f hf
      · cases hf
    · rw [writeAll_of_ok hWrite]
      obtain ⟨reached, hEvents, hReached⟩ := ih hRest tree'
      exact ⟨o.milestone :: reached, .cons ho hEvents, hReached.behind [o.milestone]⟩

end Output

end SeedScript
