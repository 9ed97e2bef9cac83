import SeedScript.Proofs.Events
import SeedScript.Proofs.Log.Setup

/-!
# How runs end

A run whose arguments can be read is done, or it reports a failure of the stage in which it was, or an
error leaves it that it does not report. What leaves a run are the limits of datasets and of names, a
settings file that is no text, a level that is none, and a journal that cannot be opened.
-/

namespace SeedScript.Cli

open Files (Path Tree)

/-- A run comes to a job: logging is set up, then settings are read. -/
structure Starts (m : Log.Machine) (progress : Progress) (c : Command) (p : Parsed) (root : Log.Root)
    (tree : Tree) (s : Settings) (job : Job) (q : Progress) : Prop where
  setUp : m.setUp (p.has verboseOption) = .ok (root, tree)
  settings : { m with tree }.settings = .ok s
  job : c.job p s { progress with events := [] } = (.ok job, q)

/-- The errors that leave a run, with what they say about its input. -/
inductive Unreported (m : Log.Machine) (progress : Progress) (c : Command) (p : Parsed) :
    Error → Prop
  | level {e : Error} : Log.levelWord m.environment m.settings ∈ ["BASIC_FORMAT", "_STYLES"] →
      m.level.toLevel = .error e → Unreported m progress c p e
  | logDirectory {fault : Tree.DirectoryFault} : m.WantsJournal →
      m.tree.makeDirectories m.journalDirectory = .error fault →
      Unreported m progress c p (.logDirectory fault)
  | logFile {made : Tree} {fault : Tree.OpenFault} : m.WantsJournal →
      m.tree.makeDirectories m.journalDirectory = .ok made → made.openEnd m.journal = .error fault →
      Unreported m progress c p (.logFile fault)
  | settingsName {root : Log.Root} {tree : Tree} : m.setUp (p.has verboseOption) = .ok (root, tree) →
      tree.locate m.settingsFile = .error .nameTooLong →
      Unreported m progress c p (.nameTooLong m.settingsFile.text)
  | settingsText {root : Log.Root} {tree : Tree} {bytes : List UInt8} {fault : Text.Utf8.Fault} :
      m.setUp (p.has verboseOption) = .ok (root, tree) → tree.read? m.settingsFile = some bytes →
      Text.Utf8.decode bytes = .error fault → Unreported m progress c p (.settingsUndecodable fault)
  | dataset {root : Log.Root} {tree : Tree} {s : Settings} {job : Job} {q : Progress} {path : String}
      {e : Error} : Starts m progress c p root tree s job q → path ∈ job.inputPaths →
      Dataset.Limit tree path e → Unreported m progress c p e
  | output {root : Log.Root} {tree : Tree} {s : Settings} {job : Job} {q : Progress} {path : String} :
      Starts m progress c p root tree s job q → path ∈ job.outputPaths → '\x00' ∈ path.toList →
      Unreported m progress c p .nullInName

/-- A run fails in a stage. -/
inductive FailsIn (m : Log.Machine) (progress : Progress) (c : Command) (p : Parsed) :
    Stage → Failure → Prop
  | config {root : Log.Root} {tree : Tree} {f : Failure} :
      m.setUp (p.has verboseOption) = .ok (root, tree) →
      { m with tree }.settings = .error (.failure f) → FailsIn m progress c p .config f
  | job {root : Log.Root} {tree : Tree} {s : Settings} {job : Job} {q : Progress} {stage : Stage}
      {f : Failure} : Starts m progress c p root tree s job q →
      job.FailsIn tree (fullReseed p s) q stage (.failure f) → FailsIn m progress c p stage f

/-- The event that a failure is logged as. -/
structure Logs (e : Log.Event) (f : Failure) : Prop where
  name : e.name = "seed_job_failed"
  severity : e.severity = .error
  logger : e.logger = "finpay_seed.cli.common"
  fields : e.fields = [("error_type", .string f.problem.type), ("failed_stage", .string f.stage.word),
    ("message", .string f.message), ("original_error_type", f.problem.cause.elim .null (.string ·))]

/-- What is seen of a run that is done. -/
structure Execution.IsDone (x : Execution) (outcomes : List Outcome) : Prop where
  ending : x.ending = .exit 0
  output : x.output = String.join (outcomes.map fun o =>
    "Seeder generated: " ++ o.path.text ++ " (" ++ toString o.rowCount ++ " rows)\n")
  notices : ∃ events : List Log.Event, x.notices = events.map .event ∧
    ∀ e ∈ events, e.name ≠ "seed_job_failed"

/-- What is seen of a run that has failed: the failure is shown in one line, and logged once unless the
level is above that of errors. -/
structure Execution.Tells (x : Execution) (root : Log.Root) (f : Failure) : Prop where
  ending : x.ending = .exit 1
  output : x.output = ""
  notices : ∃ (events : List Log.Event) (e : Log.Event), Logs e f ∧
    x.notices = events.map .event ++
      (if root.level ≤ Log.Severity.error.level then [.event e] else []) ++
        [.text ("Error [" ++ f.stage.word ++ "]: " ++ f.message ++ "\n")] ∧
    ∀ e ∈ events, e.name ≠ "seed_job_failed"

/-- What a run makes of the result of its job, with the files and the progress that the job leaves. -/
inductive Execution.Follows (x : Execution) (root : Log.Root) (timestamp : String) :
    Except Error (List Outcome) × Tree × Progress → Prop
  | done {outcomes : List Outcome} {tree : Tree} {q : Progress} : x.ending = .exit 0 →
      x.output = String.join (outcomes.map fun o =>
        "Seeder generated: " ++ o.path.text ++ " (" ++ toString o.rowCount ++ " rows)\n") →
      x.notices = (root.shown q.events).map .event → x.tree = root.keep timestamp tree q.events →
      x.progress = q → Follows x root timestamp (.ok outcomes, tree, q)
  | failed {f : Failure} {e : Log.Event} {tree : Tree} {q : Progress} : Logs e f →
      x.ending = .exit 1 → x.output = "" →
      x.notices = (root.shown (q.events ++ [e])).map .event ++
        [.text ("Error [" ++ f.stage.word ++ "]: " ++ f.message ++ "\n")] →
      x.tree = root.keep timestamp tree (q.events ++ [e]) → x.progress = q →
      Follows x root timestamp (.error (.failure f), tree, q)
  | escaped {e : Error} {tree : Tree} {q : Progress} : (∀ f, e ≠ .failure f) →
      x.ending = .escaped e → x.output = "" → x.notices = (root.shown q.events).map .event →
      x.tree = root.keep timestamp tree q.events → x.progress = q →
      Follows x root timestamp (.error e, tree, q)

variable {m : Log.Machine} {progress q : Progress} {c : Command} {arguments : List String} {p : Parsed}
  {root : Log.Root} {tree : Tree} {e : Error}

theorem runDirect_of_setUp (hParse : c.grammar.parse arguments = .ok p)
    (h : m.setUp (p.has verboseOption) = .ok (root, tree)) :
    runDirect m progress c arguments = runCommand { m with tree } root progress c p := by
  unfold Log.Machine.setUp at h
  unfold runDirect
  cases hFirst : m.configure {} with
  | error e =>
    rw [hFirst] at h
    cases h
  | ok r =>
    rw [hFirst] at h
    dsimp only at h ⊢
    rw [hParse]
    dsimp only
    rw [h]

theorem runDirect_of_not_setUp (hParse : c.grammar.parse arguments = .ok p)
    (h : m.setUp (p.has verboseOption) = .error e) :
    (runDirect m progress c arguments).ending = .escaped e := by
  unfold Log.Machine.setUp at h
  unfold runDirect
  cases hFirst : m.configure {} with
  | error e' =>
    rw [hFirst] at h
    cases h
    rfl
  | ok r =>
    rw [hFirst] at h
    dsimp only at h ⊢
    rw [hParse]
    dsimp only
    rw [h]

theorem run_eq_runDirect {all : List String} (h : splitCommand all = .ok (c, arguments)) :
    run m progress all = runDirect m progress c arguments := by
  unfold run
  cases hFirst : m.configure {} with
  | error e =>
    unfold runDirect
    rw [hFirst]
  | ok r =>
    dsimp only
    rw [h]

theorem unreported_of_setUp (h : m.setUp (p.has verboseOption) = .error e) :
    Unreported m progress c p e := by
  rcases Log.Machine.setUp_error h with hLevel | ⟨hKeeps, hMake⟩
  · exact .level (Log.Machine.mem_of_toLevel hLevel) hLevel
  · rcases Log.Machine.makeJournal_error hMake with
      ⟨fault, hMade, rfl⟩ | ⟨made, fault, hMade, hOpen, rfl⟩
    · exact .logDirectory (Log.Machine.keepsJournal_iff.mp hKeeps) hMade
    · exact .logFile (Log.Machine.keepsJournal_iff.mp hKeeps) hMade hOpen

theorem job_eq_ok (c : Command) (p : Parsed) (s : Settings) (start : Progress) :
    ∃ job q, c.job p s start = (.ok job, q) ∧ q.events = start.events := by
  cases c <;> exact ⟨_, _, rfl, rfl⟩

theorem runJob_of_job {s : Settings} {start : Progress} {job : Job}
    (h : c.job p s start = (.ok job, q)) (tree : Tree) :
    runJob c p (.ok s) tree start = job.run (fullReseed p s) tree q := by
  unfold runJob
  dsimp only
  rw [h]

theorem runJob_cases (hSetUp : m.setUp (p.has verboseOption) = .ok (root, tree)) :
    (∃ s job q outcomes tree' r, Starts m progress c p root tree s job q ∧
      job.run (fullReseed p s) tree q = (.ok outcomes, tree', r) ∧
      runJob c p { m with tree }.settings tree { progress with events := [] } =
        (.ok outcomes, tree', r)) ∨
      ∃ e tree' r, runJob c p { m with tree }.settings tree { progress with events := [] } =
          (.error e, tree', r) ∧
        ((∃ f, e = .failure f ∧ FailsIn m progress c p f.stage f) ∨ Unreported m progress c p e) := by
  cases hSettings : { m with tree }.settings with
  | error e =>
    -- no job yet: the settings are at fault, or their file is
    right
    refine ⟨e, tree, _, rfl, ?_⟩
    rcases Log.Machine.settings_error hSettings with ⟨f, rfl, hStage⟩ | ⟨hName, rfl⟩ |
      ⟨bytes, fault, hRead, hDecode, rfl⟩
    · left
      refine ⟨f, rfl, ?_⟩
      rw [hStage]
      exact .config hSetUp hSettings
    · exact .inr (.settingsName hSetUp hName)
    · exact .inr (.settingsText hSetUp hRead hDecode)
  | ok s =>
    obtain ⟨job, q, hJob, -⟩ := job_eq_ok c p s { progress with events := [] }
    have hStarts : Starts m progress c p root tree s job q := ⟨hSetUp, hSettings, hJob⟩
    rw [runJob_of_job hJob]
    rcases hResult : job.run (fullReseed p s) tree q with ⟨e | outcomes, tree', r⟩
    · right
      refine ⟨e, tree', r, rfl, ?_⟩
      obtain ⟨stage, hFails⟩ := Job.failsIn_of_run hResult
      rcases Job.isOf_of_failsIn hFails with ⟨f, rfl, hStage⟩ | ⟨path, hPath, hLimit⟩ |
        ⟨rfl, path, hPath, hNull⟩
      · left
        refine ⟨f, rfl, ?_⟩
        rw [hStage]
        exact .job hStarts hFails
      · exact .inr (.dataset hStarts hPath hLimit)
      · exact .inr (.output hStarts hPath hNull)
    · exact .inl ⟨s, job, q, outcomes, tree', r, hStarts, hResult, rfl⟩

theorem not_unreported_failure {f : Failure} : ¬Unreported m progress c p (.failure f) := by
  intro h
  cases h with
  | level hWord hLevel => cases hMeaning : m.level <;> rw [hMeaning] at hLevel <;> cases hLevel
  | dataset hStarts hPath hLimit => cases hLimit

/-! ## What a run shows -/

theorem events_runJob {settings : Except Error Settings} {tree' : Tree}
    {r : Except Error (List Outcome)}
    (h : runJob c p settings tree { progress with events := [] } = (r, tree', q)) :
    ∀ e ∈ q.events, IsJobEvent e := by
  cases settings with
  | error e =>
    cases h
    exact List.forall_mem_nil _
  | ok s =>
    obtain ⟨job, start, hJob, hNone⟩ := job_eq_ok c p s { progress with events := [] }
    rw [runJob_of_job hJob] at h
    obtain ⟨events, hEvents, hAll⟩ := Job.events_run h
    rw [hNone, List.nil_append] at hEvents
    rw [hEvents]
    exact hAll

theorem name_ne_of_isJobEvent {e : Log.Event} (h : IsJobEvent e) : e.name ≠ "seed_job_failed" := by
  intro hName
  rw [IsJobEvent, hName] at h
  revert h
  decide

variable {tree' : Tree}

theorem name_ne_of_shown (hSetUp : m.setUp (p.has verboseOption) = .ok (root, tree))
    {events : List Log.Event} (h : ∀ e ∈ events, IsJobEvent e) :
    ∀ e ∈ root.shown events, e.name ≠ "seed_job_failed" := by
  obtain ⟨journal, hRoot⟩ := Log.Machine.setUp_ok hSetUp
  rw [hRoot, Log.Root.shown_configure]
  intro e he
  exact name_ne_of_isJobEvent (h e (List.mem_filter.mp he).1)

theorem logs_failureEvent (f : Failure) : Logs (failureEvent f) f where
  name := rfl
  severity := rfl
  logger := rfl
  fields := by
    cases hCause : f.problem.cause <;>
      simp [failureEvent, Log.Logger.event, Log.Fields.update, Log.Fields.set, Failure.report,
        Failure.message, hCause, Log.Event.text]

theorem follows_runCommand (m : Log.Machine) (root : Log.Root) (progress : Progress) (c : Command)
    (p : Parsed) : (runCommand m root progress c p).Follows root m.timestamp
      (runJob c p m.settings m.tree { progress with events := [] }) := by
  unfold runCommand
  rcases runJob c p m.settings m.tree { progress with events := [] } with ⟨result, tree, q⟩
  dsimp only
  split
  · exact .done rfl rfl (List.append_nil _) rfl rfl
  · next f => exact .failed (logs_failureEvent f) rfl rfl rfl rfl rfl
  · next e hNot => exact .escaped hNot rfl rfl (List.append_nil _) rfl rfl

theorem runCommand_of_ok {outcomes : List Outcome}
    (hSetUp : m.setUp (p.has verboseOption) = .ok (root, tree))
    (h : runJob c p { m with tree }.settings tree { progress with events := [] } =
      (.ok outcomes, tree', q)) :
    (runCommand { m with tree } root progress c p).IsDone outcomes := by
  have hEvents := name_ne_of_shown hSetUp (events_runJob h)
  have hFollows := follows_runCommand { m with tree } root progress c p
  rw [h] at hFollows
  cases hFollows with
  | done hEnding hOutput hNotices => exact ⟨hEnding, hOutput, root.shown q.events, hNotices, hEvents⟩

theorem runCommand_of_failure {f : Failure}
    (hSetUp : m.setUp (p.has verboseOption) = .ok (root, tree))
    (h : runJob c p { m with tree }.settings tree { progress with events := [] } =
      (.error (.failure f), tree', q)) :
    (runCommand { m with tree } root progress c p).Tells root f := by
  have hEvents := name_ne_of_shown hSetUp (events_runJob h)
  obtain ⟨journal, hRoot⟩ := Log.Machine.setUp_ok hSetUp
  have hFollows := follows_runCommand { m with tree } root progress c p
  rw [h] at hFollows
  cases hFollows with
  | escaped hNot => exact absurd rfl (hNot f)
  | @failed _ e _ _ hLogs hEnding hOutput hNotices =>
    have hFailed : root.shown [e] = if root.level ≤ Log.Severity.error.level then [e] else [] := by
      have hShown := Log.Root.shown_configure root.level journal [e]
      rw [← hRoot, List.filter_cons, List.filter_nil, hLogs.severity] at hShown
      rw [hShown]
      exact if_congr decide_eq_true_iff rfl rfl
    refine ⟨hEnding, hOutput, root.shown q.events, e, hLogs, ?_, hEvents⟩
    rw [hNotices, Log.Root.shown_append, hFailed, List.map_append]
    split <;> rfl

theorem runCommand_of_error (h : runJob c p m.settings m.tree { progress with events := [] } =
    (.error e, tree', q)) (hNot : ∀ f, e ≠ .failure f) :
    (runCommand m root progress c p).ending = .escaped e := by
  have hFollows := follows_runCommand m root progress c p
  rw [h] at hFollows
  cases hFollows with
  | failed => exact absurd rfl (hNot _)
  | escaped _ hEnding => exact hEnding

/-! ## A machine without variables -/

def bare (tree : Tree) : Log.Machine where
  environment := []
  settingsFile := .ofText ".env"
  day := "20240101"
  timestamp := "2024-01-01T00:00:00.000000Z"
  tree := tree

theorem settings_bare (hLocate : tree.locate (.ofText ".env") = .ok [".env"])
    (hNone : tree.read? (.ofText ".env") = none) : (bare tree).settings = .ok {} := by
  have hFile : Settings.readFile (bare tree).tree (bare tree).settingsFile = .ok [] := by
    simp only [bare, Settings.readFile, hLocate, hNone]
  have hDefaults : Settings.ofSources ⟨[], []⟩ = .ok {} := by decide +kernel
  have hSources : Settings.ofSources ⟨(bare tree).environment, []⟩ = .ok {} := hDefaults
  rw [Log.Machine.settings, Settings.load, hFile, Except.bind, hSources]
  rfl

theorem configure_bare (h : (bare tree).settings = .ok {}) :
    (bare tree).configure {} = .ok (({} : Log.Root).configure 20 none, tree) := by
  have hWord : Log.Meaning.ofWord (Log.levelWord [] (.ok {})) = .level 20 := by decide +kernel
  have hLevel : (bare tree).level = .level 20 := by
    rw [Log.Machine.level, h]
    exact hWord
  have hNo : ["1", "true", "yes"].contains (Text.lowerCase "") = false := by decide +kernel
  have hKeeps : (bare tree).keepsJournal = false := hNo
  rw [Log.Machine.configure_eq, Option.elim_none, hLevel, hKeeps]
  rfl

def oneDataset (bytes : List UInt8) : Log.Machine :=
  bare (.ofEntries [] [(["seed", "country.json"], .file bytes)])

theorem runDirect_of_readJson {bytes : List UInt8}
    (h : Dataset.readJson (oneDataset bytes).tree "seed/country.json" = .error e)
    (hNot : ∀ f, e ≠ .failure f) :
    (runDirect (oneDataset bytes) .counting .countries []).ending = .escaped e := by
  have hParse : Command.countries.grammar.parse [] = .ok {} := rfl
  have hQuiet : ({} : Parsed).has verboseOption = false := rfl
  have hSettings : (oneDataset bytes).settings = .ok {} := settings_bare rfl rfl
  have hSetUp : (oneDataset bytes).setUp (({} : Parsed).has verboseOption) =
      .ok (({} : Log.Root).configure 20 none, (oneDataset bytes).tree) := by
    rw [hQuiet]
    exact Log.Machine.setUp_of_configure (configure_bare hSettings)
  have hJob : Command.countries.job {} {} .counting = (.ok (.countries "seed/country.json"
      "sql/seed_countries.sql" (some "seed/country_identifier.json")), .counting) := rfl
  have hLoad : Dataset.loadCountries (oneDataset bytes).tree "seed/country.json" .counting =
      (.error e, .counting) := by
    rw [Dataset.loadCountries, h]
    exact RunStep.bind_of_error (RunStep.ofResult_apply _ _)
  have hRun : runJob .countries {} (oneDataset bytes).settings (oneDataset bytes).tree .counting =
      (.error e, (oneDataset bytes).tree, .counting) := by
    rw [hSettings, runJob_of_job hJob]
    exact Job.run_of_fails (.countriesLoad hLoad)
  rw [runDirect_of_setUp hParse hSetUp]
  exact runCommand_of_error hRun hNot

/-- A dataset that is a number of too many digits is read as no failure, and its error leaves the run. -/
theorem escaped_of_digits {n : Nat} (h : Json.digitLimit < n) : ∃ bytes,
    Dataset.text? (oneDataset bytes).tree "seed/country.json" = some (List.replicate n '1') ∧
    Dataset.readJson (oneDataset bytes).tree "seed/country.json" = .error (.integerTooLong n) ∧
    (runDirect (oneDataset bytes) .counting .countries []).ending =
      .escaped (.integerTooLong n) := by
  have hReturn : '\r' ∉ List.replicate n '1' := by
    intro hMem
    cases List.eq_of_mem_replicate hMem
  have hDecode := Text.Utf8.decode_encode (String.ofList (List.replicate n '1'))
  rw [String.toList_ofList] at hDecode
  generalize Text.Utf8.encode (String.ofList (List.replicate n '1')) = bytes at hDecode
  have hRead : (oneDataset bytes).tree.read? (.ofText "seed/country.json") = some bytes := rfl
  have hText := Dataset.text?_of_read? hRead hDecode
  rw [Text.unifyLineEnds_of_not_mem hReturn] at hText
  have hError : Dataset.readJson (oneDataset bytes).tree "seed/country.json" =
      .error (.integerTooLong n) := by
    rw [Dataset.readJson_of_text? hText, Json.read_ones h]
  exact ⟨bytes, hText, hError, runDirect_of_readJson hError nofun⟩

/-! ## The end of a run -/

end SeedScript.Cli
