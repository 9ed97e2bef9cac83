import SeedScript.Proofs.Log.Setup
import SeedScript.Proofs.Passing
import SeedScript.Proofs.Results

/-!
# The milestones of jobs

A job has a fixed sequence of milestones: every dataset is loaded, every table compiled, every output
written, and then it is completed. Main statement: the events of a run are those of the milestones up to
the end or up to a failure, the stage of the failure is that of the first milestone that is missing, and
the counts in the events are those of what the run has loaded and compiled.
-/

namespace SeedScript

open Files (Path Tree)
open RunStep
open Milestone (Reached)

/-! ## The events of milestones -/

/-- An event for the ordinary log that has this name and, among others, these fields. -/
structure Log.Event.Says (e : Event) (name : String) (fields : Fields) : Prop where
  name : e.name = name
  severity : e.severity = .info
  fields : ∀ f ∈ fields, e.fields.lookup f.1 = some f.2

namespace Job

open Log.Event (text count)

/-- The tables that a job seeds, each from a dataset of the same name. -/
def tables : Job → List String
  | countries .. => ["countries"]
  | banks .. => ["banks"]
  | all .. => ["countries", "banks"]

/-- The milestones of writing: the export of identifiers is one of them if it has a path. -/
def writes : Job → List Milestone
  | countries _ _ identifiersOutput =>
    .written "countries" :: (identifiersOutput.map fun _ => .exported).toList
  | banks .. => [.written "banks"]
  | all _ _ _ _ identifiersOutput _ =>
    .written "countries" :: (identifiersOutput.map fun _ => .exported).toList ++ [.written "banks"]

def milestones (job : Job) : List Milestone :=
  job.tables.map .loaded ++ job.tables.map .compiled ++ (job.writes ++ [.completed])

variable (tree : Tree) (fullReseed : Bool) (p : Progress)

/-- A run loads this many records of a dataset. -/
inductive Loads : Job → String → Nat → Prop
  | countries {input output : String} {identifiersOutput : Option String} {q : Progress}
      {records : List CountryRecord} : Dataset.loadCountries tree input p = (.ok records, q) →
      Loads (.countries input output identifiersOutput) "countries" records.length
  | banks {input output : String} {names : Option NameSource} {q : Progress}
      {records : List BankRecord} : Dataset.loadBanks tree input names p = (.ok records, q) →
      Loads (.banks input output names) "banks" records.length
  | allCountries {countriesInput banksInput countriesOutput banksOutput : String}
      {identifiersOutput : Option String} {names : Option NameSource} {q : Progress}
      {records : List CountryRecord} : Dataset.loadCountries tree countriesInput p = (.ok records, q) →
      Loads (.all countriesInput banksInput countriesOutput banksOutput identifiersOutput names)
        "countries" records.length
  | allBanks {countriesInput banksInput countriesOutput banksOutput : String}
      {identifiersOutput : Option String} {names : Option NameSource} {q r : Progress}
      {countries : List CountryRecord} {records : List BankRecord} :
      Dataset.loadCountries tree countriesInput p = (.ok countries, q) →
      Dataset.loadBanks tree banksInput names q = (.ok records, r) →
      Loads (.all countriesInput banksInput countriesOutput banksOutput identifiersOutput names)
        "banks" records.length

variable (job : Job)

/-- A run compiles a set. In a run for both tables the countries are compiled even if the banks fail. -/
inductive Compiles : StatementSet → Prop
  | countries {records : List CountryRecord × List BankRecord} {q r : Progress} {s : StatementSet} :
      "countries" ∈ job.tables → job.load tree p = (.ok records, q) →
      compileCountries records.1 fullReseed q = (.ok s, r) → Compiles s
  | banks {records : List CountryRecord × List BankRecord} {q r : Progress} {s : StatementSet} :
      job.tables = ["banks"] → job.load tree p = (.ok records, q) →
      compileBanks records.2 {} fullReseed q = (.ok s, r) → Compiles s
  | both {records : List CountryRecord × List BankRecord} {q r : Progress} {s t : StatementSet} :
      job.tables = ["countries", "banks"] → job.load tree p = (.ok records, q) →
      compileSeed records.1 records.2 fullReseed q = (.ok (s, t), r) → Compiles t

/-- A set that a run compiles has a row for each record that the run loads for its table. -/
structure Has (s : StatementSet) : Prop where
  compiled : job.Compiles tree fullReseed p s
  loaded : job.Loads tree p s.table s.rowCount

/-- An event reports a milestone, with the counts of what the run has loaded and compiled. -/
inductive Announces : Milestone → Log.Event → Prop
  | loaded {dataset : String} {n : Nat} {e : Log.Event} : job.Loads tree p dataset n →
      e.Says "dataset_loaded" [("dataset", text dataset), ("records", count n)] →
      Announces (.loaded dataset) e
  | compiled {s : StatementSet} {e : Log.Event} : job.Has tree fullReseed p s →
      e.Says "statements_compiled" [("table", text s.table), ("rows", count s.rowCount),
        ("statements", count s.statements.length)] → Announces (.compiled s.table) e
  | written {s : StatementSet} {e : Log.Event} : job.Has tree fullReseed p s →
      e.Says "script_written" [("table", text s.table), ("rows", count s.rowCount),
        ("statements", count s.statements.length)] → Announces (.written s.table) e
  | exported {s : StatementSet} {e : Log.Event} : job.Has tree fullReseed p s →
      s.table = "countries" → e.Says "identifiers_exported" [("count", count s.rowCount)] →
      Announces .exported e
  | completed {s : StatementSet} {e : Log.Event} : job.tables = [s.table] →
      job.Has tree fullReseed p s → e.Says "seed_job_completed" [("rows", count s.rowCount)] →
      Announces .completed e
  | completedBoth {s t : StatementSet} {e : Log.Event} : job.tables = [s.table, t.table] →
      job.Has tree fullReseed p s → job.Has tree fullReseed p t →
      e.Says "seed_job_completed" [("countries", count s.rowCount), ("banks", count t.rowCount)] →
      Announces .completed e

end Job

theorem Dataset.says_loaded (dataset path : String) (n : Nat) :
    (loaded dataset path n).Says "dataset_loaded"
      [("dataset", Log.Event.text dataset), ("records", Log.Event.count n)] where
  name := rfl
  severity := rfl
  fields := by simp [loaded, List.lookup_cons]

theorem StatementSet.says_compiled (s : StatementSet) (detail : String × Json) :
    (s.compiled detail).Says "statements_compiled" [("table", Log.Event.text s.table),
      ("rows", Log.Event.count s.rowCount), ("statements", Log.Event.count s.statements.length)] where
  name := rfl
  severity := rfl
  fields := by simp [compiled, List.lookup_cons]

/-! ## Loading and compiling -/

theorem counts_of_compileCountries {records : List CountryRecord} {fullReseed : Bool} {p q : Progress}
    {s : StatementSet} (h : compileCountries records fullReseed p = (.ok s, q)) :
    s.table = "countries" ∧ s.rowCount = records.length := by
  obtain ⟨-, rfl, -⟩ := compileCountries_eq_ok_iff.mp h
  exact ⟨rfl, p.length_draws _⟩

theorem counts_of_compileBanks {records : List BankRecord} {r : Resolver} {fullReseed : Bool}
    {p q : Progress} {s : StatementSet} (h : compileBanks records r fullReseed p = (.ok s, q)) :
    s.table = "banks" ∧ s.rowCount = records.length := by
  obtain ⟨countries, -, -, rfl, -⟩ := compileBanks_eq_ok_iff.mp h
  exact ⟨rfl, p.length_draws _⟩

theorem compileCountries_of_compileSeed {countries : List CountryRecord} {banks : List BankRecord}
    {fullReseed : Bool} {p q : Progress} {s t : StatementSet}
    (h : compileSeed countries banks fullReseed p = (.ok (s, t), q)) :
    ∃ r, compileCountries countries fullReseed p = (.ok s, r) := by
  obtain ⟨s', r, hCountries, h⟩ := bind_eq_ok_iff.mp h
  obtain ⟨resolver, r', -, h⟩ := bind_eq_ok_iff.mp h
  obtain ⟨t', r'', -, h⟩ := bind_eq_ok_iff.mp h
  cases h
  exact ⟨r, hCountries⟩

theorem counts_of_compileSeed {countries : List CountryRecord} {banks : List BankRecord}
    {fullReseed : Bool} {p q : Progress} {s t : StatementSet}
    (h : compileSeed countries banks fullReseed p = (.ok (s, t), q)) :
    t.table = "banks" ∧ t.rowCount = banks.length := by
  obtain ⟨r, found, -, -, -, -, rfl, -⟩ := compileSeed_eq_ok_iff.mp h
  exact ⟨rfl, (p.afterDraws _).length_draws _⟩

namespace Job

variable {tree : Tree} {fullReseed : Bool} {p q r : Progress} {job : Job}
  {records : List CountryRecord × List BankRecord} {s t : StatementSet}

theorem loads_of_load (h : job.load tree p = (.ok records, q)) :
    ("countries" ∈ job.tables → job.Loads tree p "countries" records.1.length) ∧
      ("banks" ∈ job.tables → job.Loads tree p "banks" records.2.length) := by
  cases job with
  | countries input output identifiersOutput =>
    obtain ⟨countries, p', hLoad, h⟩ := bind_eq_ok_iff.mp h
    cases h
    exact ⟨fun _ => .countries hLoad, fun hMem => by simp [tables] at hMem⟩
  | banks input output names =>
    obtain ⟨banks, p', hLoad, h⟩ := bind_eq_ok_iff.mp h
    cases h
    exact ⟨fun hMem => by simp [tables] at hMem, fun _ => .banks hLoad⟩
  | all countriesInput banksInput countriesOutput banksOutput identifiersOutput names =>
    obtain ⟨countries, p', hCountries, h⟩ := bind_eq_ok_iff.mp h
    obtain ⟨banks, p'', hBanks, h⟩ := bind_eq_ok_iff.mp h
    cases h
    exact ⟨fun _ => .allCountries hCountries, fun _ => .allBanks hCountries hBanks⟩

theorem has_countries (hTables : "countries" ∈ job.tables) (hLoad : job.load tree p = (.ok records, q))
    (h : compileCountries records.1 fullReseed q = (.ok s, r)) :
    s.table = "countries" ∧ job.Has tree fullReseed p s := by
  obtain ⟨hTable, hCount⟩ := counts_of_compileCountries h
  refine ⟨hTable, .countries hTables hLoad h, ?_⟩
  rw [hTable, hCount]
  exact (loads_of_load hLoad).1 hTables

theorem has_banks (hTables : job.tables = ["banks"]) (hLoad : job.load tree p = (.ok records, q))
    (h : compileBanks records.2 {} fullReseed q = (.ok s, r)) :
    s.table = "banks" ∧ job.Has tree fullReseed p s := by
  obtain ⟨hTable, hCount⟩ := counts_of_compileBanks h
  refine ⟨hTable, .banks hTables hLoad h, ?_⟩
  rw [hTable, hCount]
  exact (loads_of_load hLoad).2 (by simp [hTables])

theorem has_both (hTables : job.tables = ["countries", "banks"])
    (hLoad : job.load tree p = (.ok records, q))
    (h : compileSeed records.1 records.2 fullReseed q = (.ok (s, t), r)) :
    t.table = "banks" ∧ job.Has tree fullReseed p t := by
  obtain ⟨hTable, hCount⟩ := counts_of_compileSeed h
  refine ⟨hTable, .both hTables hLoad h, ?_⟩
  rw [hTable, hCount]
  exact (loads_of_load hLoad).2 (by simp [hTables])

theorem announces_compiled {table : String} (h : s.table = table ∧ job.Has tree fullReseed p s)
    (detail : String × Json) :
    job.Announces tree fullReseed p (.compiled table) (s.compiled detail) := by
  obtain ⟨rfl, hHas⟩ := h
  exact .compiled hHas (s.says_compiled detail)

theorem passes_loadCountries {path : String} (h : ∀ records r,
      Dataset.loadCountries tree path q = (.ok records, r) → job.Loads tree p "countries" records.length) :
    Passes q (Dataset.loadCountries tree path) [.loaded "countries"] (job.Announces tree fullReseed p) :=
  (Dataset.tells_loadCountries tree path).passes
    ((Dataset.failsWith_loadCountries tree path).mono fun _ => Dataset.stage_of_load)
    fun records r hLoad => .loaded (h records r hLoad) (Dataset.says_loaded _ _ _)

theorem passes_loadBanks {path : String} {names : Option NameSource} (h : ∀ records r,
      Dataset.loadBanks tree path names q = (.ok records, r) → job.Loads tree p "banks" records.length) :
    Passes q (Dataset.loadBanks tree path names) [.loaded "banks"] (job.Announces tree fullReseed p) :=
  (Dataset.tells_loadBanks tree path names).passes
    ((Dataset.failsWith_loadBanks tree path names).mono fun _ => Dataset.stage_of_load)
    fun records r hLoad => .loaded (h records r hLoad) (Dataset.says_loaded _ _ _)

theorem passes_load (job : Job) (tree : Tree) (fullReseed : Bool) (p : Progress) :
    Passes p (job.load tree) (job.tables.map .loaded) (job.Announces tree fullReseed p) := by
  cases job with
  | countries input output identifiersOutput =>
    exact (passes_loadCountries fun _ _ h => .countries h).bind fun _ _ _ => passes_pure _ _
  | banks input output names =>
    exact (passes_loadBanks fun _ _ h => .banks h).bind fun _ _ _ => passes_pure _ _
  | all countriesInput banksInput countriesOutput banksOutput identifiersOutput names =>
    refine (passes_loadCountries fun _ _ h => .allCountries h).bind fun _ _ hCountries => ?_
    exact (passes_loadBanks fun _ _ h => .allBanks hCountries h).bind fun _ _ _ => passes_pure _ _

theorem passes_compile (hLoad : job.load tree p = (.ok records, q)) :
    Passes q (job.compile fullReseed records) (job.tables.map .compiled)
      (job.Announces tree fullReseed p) := by
  cases job with
  | countries input output identifiersOutput =>
    have hCompile : Passes q (compileCountries records.1 fullReseed) [.compiled "countries"]
        ((countries input output identifiersOutput).Announces tree fullReseed p) :=
      (tells_compileCountries records.1 fullReseed).passes
        ((failsWith_compileCountries _ _).mono fun _ => Error.IsOf.stage)
        fun s r h => announces_compiled (has_countries List.mem_cons_self hLoad h) _
    exact hCompile.bind fun s r _ => passes_pure _ _
  | banks input output names =>
    have hCompile : Passes q (compileBanks records.2 {} fullReseed) [.compiled "banks"]
        ((banks input output names).Announces tree fullReseed p) :=
      (tells_compileBanks records.2 {} fullReseed).passes
        ((failsWith_compileBanks _ _ _).mono fun _ => Error.IsOf.stage)
        fun s r h => announces_compiled (has_banks rfl hLoad h) _
    exact hCompile.bind fun s r _ => passes_pure _ _
  | all countriesInput banksInput countriesOutput banksOutput identifiersOutput names =>
    refine Passes.bind (passes_compileSeed ?_ ?_) fun _ _ _ => passes_pure _ _
    · exact fun s r h => announces_compiled (has_countries List.mem_cons_self hLoad h) _
    · exact fun s t r _ h => announces_compiled (has_both rfl hLoad h) _

theorem passes_prepare (job : Job) (tree : Tree) (fullReseed : Bool) (p : Progress) :
    Passes p (job.prepare tree fullReseed) (job.tables.map .loaded ++ job.tables.map .compiled)
      (job.Announces tree fullReseed p) := by
  rw [prepare_eq]
  exact (passes_load job tree fullReseed p).bind fun records q hLoad => passes_compile hLoad

end Job

/-! ## Runs -/

namespace Job

variable {tree : Tree} {fullReseed : Bool} {p q : Progress} {job : Job}

theorem announces_written {o : Output} (h : job.Has tree fullReseed p o.set)
    (hTable : o.product = .identifiers → o.set.table = "countries") :
    job.Announces tree fullReseed p o.milestone o.written := by
  rw [Output.milestone, Output.written]
  cases hProduct : o.product with
  | script =>
    refine .written h ⟨rfl, rfl, ?_⟩
    simp [Log.Logger.event, Output.logger, Log.Fields.update, Log.Fields.set, List.lookup_cons]
  | identifiers =>
    refine .exported h (hTable hProduct) ⟨rfl, rfl, ?_⟩
    simp [Log.Logger.event, Output.logger, Log.Fields.update, Log.Fields.set, List.lookup_cons]

/-- What is left to do of a job when everything is compiled: its outputs are the milestones of writing,
and the event at the end reports the last one. -/
structure IsLeft (tree : Tree) (fullReseed : Bool) (p : Progress) (job : Job) (prepared : Prepared) :
    Prop where
  writes : prepared.outputs.map Output.milestone = job.writes
  announces : ∀ o ∈ prepared.outputs, job.Announces tree fullReseed p o.milestone o.written
  completed : job.Announces tree fullReseed p .completed prepared.completed

theorem milestone_exports (path : Option String) (s : StatementSet) :
    (exports path s).map Output.milestone = (path.map fun _ => Milestone.exported).toList := by
  cases path <;> rfl

theorem announces_script {s : StatementSet} (h : job.Has tree fullReseed p s) (path : String) :
    job.Announces tree fullReseed p (script path s).milestone (script path s).written :=
  announces_written h nofun

theorem announces_exports {s : StatementSet} (hTable : s.table = "countries")
    (h : job.Has tree fullReseed p s) (path : Option String) :
    ∀ o ∈ exports path s, job.Announces tree fullReseed p o.milestone o.written := by
  intro o ho
  rw [exports_eq, List.mem_map] at ho
  obtain ⟨text, -, rfl⟩ := ho
  exact announces_written h fun _ => hTable

theorem isLeft_of_compile {records : List CountryRecord × List BankRecord} {r : Progress}
    {prepared : Prepared} (hLoad : job.load tree p = (.ok records, q))
    (h : job.compile fullReseed records q = (.ok prepared, r)) :
    IsLeft tree fullReseed p job prepared := by
  cases job with
  | countries input output identifiersOutput =>
    obtain ⟨s, q', hCompile, h⟩ := bind_eq_ok_iff.mp h
    obtain ⟨hTable, hHas⟩ := has_countries List.mem_cons_self hLoad hCompile
    cases h
    constructor
    · rw [List.map_cons, milestone_exports, writes, ← hTable]
      rfl
    · exact List.forall_mem_cons.mpr ⟨announces_script hHas _, announces_exports hTable hHas _⟩
    · refine .completed (by rw [hTable]; rfl) hHas ⟨rfl, rfl, ?_⟩
      simp [completedOne, completed, Log.Logger.event, Log.Logger.ofContext, Log.Fields.update,
        Log.Fields.set, List.lookup_cons]
  | banks input output names =>
    obtain ⟨s, q', hCompile, h⟩ := bind_eq_ok_iff.mp h
    obtain ⟨hTable, hHas⟩ := has_banks rfl hLoad hCompile
    cases h
    constructor
    · rw [List.map_singleton, writes, ← hTable]
      rfl
    · exact List.forall_mem_singleton.mpr (announces_script hHas _)
    · refine .completed (by rw [hTable]; rfl) hHas ⟨rfl, rfl, ?_⟩
      simp [completedOne, completed, Log.Logger.event, Log.Logger.ofContext, Log.Fields.update,
        Log.Fields.set, List.lookup_cons]
  | all countriesInput banksInput countriesOutput banksOutput identifiersOutput names =>
    obtain ⟨⟨s, t⟩, q', hCompile, h⟩ := bind_eq_ok_iff.mp h
    obtain ⟨r', hCountries⟩ := compileCountries_of_compileSeed hCompile
    obtain ⟨hTable, hHas⟩ := has_countries List.mem_cons_self hLoad hCountries
    obtain ⟨hTable', hHas'⟩ := has_both rfl hLoad hCompile
    cases h
    constructor
    · rw [List.map_append, List.map_cons, milestone_exports, List.map_singleton, writes, ← hTable,
        ← hTable']
      rfl
    · exact List.forall_mem_append.mpr ⟨List.forall_mem_cons.mpr ⟨announces_script hHas _,
        announces_exports hTable hHas _⟩, List.forall_mem_singleton.mpr (announces_script hHas' _)⟩
    · refine .completedBoth (by rw [hTable, hTable']; rfl) hHas hHas' ⟨rfl, rfl, ?_⟩
      simp [completed, Log.Logger.event, Log.Logger.ofContext, Log.Fields.update, Log.Fields.set,
        List.lookup_cons]

/-- A run passes the milestones of its job, up to the end or up to its failure. -/
theorem reached_run (job : Job) (fullReseed : Bool) (tree : Tree) (p : Progress) :
    ∃ events reached, (job.run fullReseed tree p).2.2.events = p.events ++ events ∧
      List.Forall₂ (job.Announces tree fullReseed p) reached events ∧
      Reached job.milestones reached (job.run fullReseed tree p).1 := by
  obtain ⟨events, reached, hEvents, hA, hReached⟩ := passes_prepare job tree fullReseed p
  rcases hPrepare : job.prepare tree fullReseed p with ⟨e | prepared, q⟩
  · rw [hPrepare] at hEvents hReached
    rw [run, hPrepare]
    exact ⟨events, reached, hEvents, hA, hReached.before _⟩
  · rw [hPrepare] at hEvents hReached
    have hLeft : IsLeft tree fullReseed p job prepared := by
      rw [prepare_eq] at hPrepare
      obtain ⟨records, q', hLoad, hCompile⟩ := bind_eq_ok_iff.mp hPrepare
      exact isLeft_of_compile hLoad hCompile
    obtain ⟨reached', hWritten, hReached'⟩ := Output.reached_writeAll hLeft.announces tree
    rw [hLeft.writes] at hReached'
    cases hReached
    rcases hWrite : Output.writeAll tree prepared.outputs with ⟨e | u, written, tree'⟩
    · rw [hWrite] at hWritten hReached'
      simp only [run, hPrepare, hWrite]
      refine ⟨events ++ written, _, ?_, List.rel_append hA hWritten, ?_⟩
      · rw [hEvents, List.append_assoc]
      · exact (hReached'.before [.completed]).behind _
    · rw [hWrite] at hWritten hReached'
      cases hReached'
      have hLast : List.Forall₂ (job.Announces tree fullReseed p) [.completed] [prepared.completed] :=
        .cons hLeft.completed .nil
      simp only [run, hPrepare, hWrite]
      refine ⟨events ++ (written ++ [prepared.completed]), _, ?_,
        List.rel_append hA (List.rel_append hWritten hLast), .all⟩
      rw [hEvents, List.append_assoc, List.append_assoc]

theorem severity_of_announces {m : Milestone} {e : Log.Event}
    (h : job.Announces tree fullReseed p m e) : e.severity = .info := by
  cases h with
  | loaded _ hSays => exact hSays.severity
  | compiled _ hSays => exact hSays.severity
  | written _ hSays => exact hSays.severity
  | exported _ _ hSays => exact hSays.severity
  | completed _ _ hSays => exact hSays.severity
  | completedBoth _ _ _ hSays => exact hSays.severity

theorem shown_of_announces {reached : List Milestone} {events : List Log.Event}
    (h : List.Forall₂ (job.Announces tree fullReseed p) reached events) {level : Int}
    (hLevel : level ≤ Log.Severity.info.level) (journal : Option Path) :
    (({} : Log.Root).configure level journal).shown events = events := by
  rw [Log.Root.shown_configure, List.filter_eq_self]
  induction h with
  | nil => exact List.forall_mem_nil _
  | cons hAnnounces _ ih =>
    refine List.forall_mem_cons.mpr ⟨?_, ih⟩
    rw [severity_of_announces hAnnounces]
    exact decide_eq_true hLevel

/-- What a run shows is a prefix of the milestones of its job, with the counts of what it has loaded and
compiled. It has results exactly if nothing is missing, and if it fails, the first milestone that is
missing tells the stage. -/
theorem run_milestones {job : Job} {fullReseed : Bool} {tree tree' : Tree} {p q : Progress}
    {r : Except Error (List Outcome)} (h : job.run fullReseed tree p = (r, tree', q)) {level : Int}
    (hLevel : level ≤ Log.Severity.info.level) (journal : Option Path) :
    ∃ events reached, q.events = p.events ++ events ∧
      (({} : Log.Root).configure level journal).shown events = events ∧
      reached <+: job.milestones ∧ List.Forall₂ (job.Announces tree fullReseed p) reached events ∧
      ((∃ outcomes, r = .ok outcomes) ↔ reached = job.milestones) ∧
      ∀ f, r = .error (.failure f) →
        ∃ m rest, job.milestones = reached ++ m :: rest ∧ m.stage? = some f.stage := by
  obtain ⟨events, reached, hEvents, hAnnounces, hReached⟩ := reached_run job fullReseed tree p
  rw [h] at hEvents hReached
  refine ⟨events, reached, hEvents, shown_of_announces hAnnounces hLevel journal, hReached.isPrefix,
    hAnnounces, hReached.ok_iff, ?_⟩
  rintro f rfl
  exact hReached.missing

def number? (name : String) (e : Log.Event) : Option Int :=
  match e.fields.lookup name with
  | some (.integer n) => some n
  | _ => none

/-- Every milestone is passed, with three records and three rows of either table. -/
theorem run_milestones_datasets : ∃ tree q,
    (ofDatasets "b.sql" (some "ids.json")).run false datasets .counting =
        (.ok [⟨"countries", .ofText "c.sql", 3, 2⟩, ⟨"banks", .ofText "b.sql", 3, 5⟩], tree, q) ∧
      (({} : Log.Root).configure 10 none).shown q.events = q.events ∧
      List.Forall₂ ((ofDatasets "b.sql" (some "ids.json")).Announces datasets false .counting)
        [.loaded "countries", .loaded "banks", .compiled "countries", .compiled "banks",
          .written "countries", .exported, .written "banks", .completed] q.events ∧
      q.events.map (fun e => (number? "records" e, number? "rows" e)) =
        [(some 3, none), (some 3, none), (none, some 3), (none, some 3), (none, some 3), (none, none),
          (none, some 3), (none, none)] := by
  have hCounts : (((ofDatasets "b.sql" (some "ids.json")).run false datasets .counting).2.2.events.map
      fun e => (number? "records" e, number? "rows" e)) =
        [(some 3, none), (some 3, none), (none, some 3), (none, some 3), (none, some 3), (none, none),
          (none, some 3), (none, none)] := by
    rw [run, ofDatasets, prepare, Dataset.loadCountries, readJson_countries, Dataset.loadBanks,
      readJson_banks]
    decide +kernel
  obtain ⟨tree, q, hRun⟩ := run_datasets
  rw [hRun] at hCounts
  have hLevel : (10 : Int) ≤ Log.Severity.info.level := by decide
  obtain ⟨events, reached, hEvents, hShown, -, hAnnounces, hAll, -⟩ :=
    run_milestones hRun hLevel none
  rw [hAll.mp ⟨_, rfl⟩] at hAnnounces
  have hStart : q.events = events := hEvents
  rw [← hStart] at hShown hAnnounces
  exact ⟨tree, q, hRun, hShown, hAnnounces, hCounts⟩

end Job
end SeedScript
