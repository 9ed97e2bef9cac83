import SeedScript.Job
import SeedScript.Proofs.Compilation
import SeedScript.Proofs.Dataset
import SeedScript.Proofs.Outputs

/-!
# What jobs do to files

A job either fails while it reads and compiles, and then every file is as it was, or it has a plan of
outputs and writes them in order. What it leaves behind is the outputs in front of the first that
cannot be written, and nothing else.
-/

namespace SeedScript

open Files (Path Tree)

namespace Job

open RunStep

/-- The texts of the paths that a job writes to, in order. -/
def outputPaths : Job → List String
  | countries _ output identifiersOutput => output :: identifiersOutput.toList
  | banks _ output _ => [output]
  | all _ _ countriesOutput banksOutput identifiersOutput _ =>
    countriesOutput :: identifiersOutput.toList ++ [banksOutput]

variable (tree : Tree) (fullReseed : Bool)

/-- A job fails in a step of reading or compiling, after the steps in front of it. -/
inductive Fails : Job → Progress → Error → Progress → Prop
  | countriesLoad {input output : String} {identifiersOutput : Option String} {p q : Progress}
      {e : Error} : Dataset.loadCountries tree input p = (.error e, q) →
      Fails (.countries input output identifiersOutput) p e q
  | countriesCompile {input output : String} {identifiersOutput : Option String}
      {p q r : Progress} {records : List CountryRecord} {e : Error} :
      Dataset.loadCountries tree input p = (.ok records, q) →
      compileCountries records fullReseed q = (.error e, r) →
      Fails (.countries input output identifiersOutput) p e r
  | banksLoad {input output : String} {names : Option NameSource} {p q : Progress} {e : Error} :
      Dataset.loadBanks tree input names p = (.error e, q) → Fails (.banks input output names) p e q
  | banksCompile {input output : String} {names : Option NameSource} {p q r : Progress}
      {records : List BankRecord} {e : Error} :
      Dataset.loadBanks tree input names p = (.ok records, q) →
      compileBanks records {} fullReseed q = (.error e, r) → Fails (.banks input output names) p e r
  | allCountriesLoad {countriesInput banksInput countriesOutput banksOutput : String}
      {identifiersOutput : Option String} {names : Option NameSource} {p q : Progress} {e : Error} :
      Dataset.loadCountries tree countriesInput p = (.error e, q) →
      Fails (.all countriesInput banksInput countriesOutput banksOutput identifiersOutput names) p e q
  | allBanksLoad {countriesInput banksInput countriesOutput banksOutput : String}
      {identifiersOutput : Option String} {names : Option NameSource} {p q r : Progress}
      {countries : List CountryRecord} {e : Error} :
      Dataset.loadCountries tree countriesInput p = (.ok countries, q) →
      Dataset.loadBanks tree banksInput names q = (.error e, r) →
      Fails (.all countriesInput banksInput countriesOutput banksOutput identifiersOutput names) p e r
  | allCompile {countriesInput banksInput countriesOutput banksOutput : String}
      {identifiersOutput : Option String} {names : Option NameSource} {p q r u : Progress}
      {countries : List CountryRecord} {banks : List BankRecord} {e : Error} :
      Dataset.loadCountries tree countriesInput p = (.ok countries, q) →
      Dataset.loadBanks tree banksInput names q = (.ok banks, r) →
      compileSeed countries banks fullReseed r = (.error e, u) →
      Fails (.all countriesInput banksInput countriesOutput banksOutput identifiersOutput names) p e u

/-- A job has read and compiled everything, and has these outputs to write: the script of the
countries, the export of their identifiers if it has a path, and the script of the banks, as the job
has them. -/
inductive Plans : Job → Progress → List Output → Progress → Prop
  | countries {input output : String} {identifiersOutput : Option String} {p q r : Progress}
      {records : List CountryRecord} {s : StatementSet} :
      Dataset.loadCountries tree input p = (.ok records, q) →
      compileCountries records fullReseed q = (.ok s, r) →
      Plans (.countries input output identifiersOutput) p
        (⟨.script, .ofText output, s⟩ ::
          identifiersOutput.toList.map fun path => ⟨.identifiers, .ofText path, s⟩) r
  | banks {input output : String} {names : Option NameSource} {p q r : Progress}
      {records : List BankRecord} {s : StatementSet} :
      Dataset.loadBanks tree input names p = (.ok records, q) →
      compileBanks records {} fullReseed q = (.ok s, r) →
      Plans (.banks input output names) p [⟨.script, .ofText output, s⟩] r
  | all {countriesInput banksInput countriesOutput banksOutput : String}
      {identifiersOutput : Option String} {names : Option NameSource} {p q r u : Progress}
      {countries : List CountryRecord} {banks : List BankRecord} {s t : StatementSet} :
      Dataset.loadCountries tree countriesInput p = (.ok countries, q) →
      Dataset.loadBanks tree banksInput names q = (.ok banks, r) →
      compileSeed countries banks fullReseed r = (.ok (s, t), u) →
      Plans (.all countriesInput banksInput countriesOutput banksOutput identifiersOutput names) p
        (⟨.script, .ofText countriesOutput, s⟩ ::
          (identifiersOutput.toList.map fun path => ⟨.identifiers, .ofText path, s⟩) ++
            [⟨.script, .ofText banksOutput, t⟩]) u

variable {tree : Tree} {fullReseed : Bool} {job : Job} {p q : Progress}

theorem fails_of_prepare {e : Error} (h : job.prepare tree fullReseed p = (.error e, q)) :
    job.Fails tree fullReseed p e q := by
  cases job with
  | countries input output identifiersOutput =>
    rcases bind_eq_error_iff.mp h with hLoad | ⟨records, p', hLoad, h⟩
    · exact .countriesLoad hLoad
    · rcases bind_eq_error_iff.mp h with hCompile | ⟨s, p'', -, h⟩
      · exact .countriesCompile hLoad hCompile
      · cases h
  | banks input output names =>
    rcases bind_eq_error_iff.mp h with hLoad | ⟨records, p', hLoad, h⟩
    · exact .banksLoad hLoad
    · rcases bind_eq_error_iff.mp h with hCompile | ⟨s, p'', -, h⟩
      · exact .banksCompile hLoad hCompile
      · cases h
  | all countriesInput banksInput countriesOutput banksOutput identifiersOutput names =>
    rcases bind_eq_error_iff.mp h with hCountries | ⟨countries, p', hCountries, h⟩
    · exact .allCountriesLoad hCountries
    · rcases bind_eq_error_iff.mp h with hBanks | ⟨banks, p'', hBanks, h⟩
      · exact .allBanksLoad hCountries hBanks
      · rcases bind_eq_error_iff.mp h with hCompile | ⟨⟨s, t⟩, _, -, h⟩
        · exact .allCompile hCountries hBanks hCompile
        · cases h

theorem prepare_of_fails {e : Error} (h : job.Fails tree fullReseed p e q) :
    job.prepare tree fullReseed p = (.error e, q) := by
  cases h with
  | countriesLoad hLoad => exact bind_of_error hLoad
  | countriesCompile hLoad hCompile => exact (bind_of_ok hLoad).trans (bind_of_error hCompile)
  | banksLoad hLoad => exact bind_of_error hLoad
  | banksCompile hLoad hCompile => exact (bind_of_ok hLoad).trans (bind_of_error hCompile)
  | allCountriesLoad hCountries => exact bind_of_error hCountries
  | allBanksLoad hCountries hBanks => exact (bind_of_ok hCountries).trans (bind_of_error hBanks)
  | allCompile hCountries hBanks hCompile =>
    exact (bind_of_ok hCountries).trans ((bind_of_ok hBanks).trans (bind_of_error hCompile))

theorem exports_eq (path : Option String) (s : StatementSet) :
    exports path s = path.toList.map fun p => ⟨.identifiers, .ofText p, s⟩ := by
  cases path <;> rfl

theorem plans_of_prepare {prepared : Prepared}
    (h : job.prepare tree fullReseed p = (.ok prepared, q)) :
    job.Plans tree fullReseed p prepared.outputs q := by
  cases job with
  | countries input output identifiersOutput =>
    obtain ⟨records, p', hLoad, h⟩ := bind_eq_ok_iff.mp h
    obtain ⟨s, p'', hCompile, h⟩ := bind_eq_ok_iff.mp h
    cases h
    simp only [exports_eq]
    exact .countries hLoad hCompile
  | banks input output names =>
    obtain ⟨records, p', hLoad, h⟩ := bind_eq_ok_iff.mp h
    obtain ⟨s, p'', hCompile, h⟩ := bind_eq_ok_iff.mp h
    cases h
    exact .banks hLoad hCompile
  | all countriesInput banksInput countriesOutput banksOutput identifiersOutput names =>
    obtain ⟨countries, p', hCountries, h⟩ := bind_eq_ok_iff.mp h
    obtain ⟨banks, p'', hBanks, h⟩ := bind_eq_ok_iff.mp h
    obtain ⟨⟨s, t⟩, q', hCompile, h⟩ := bind_eq_ok_iff.mp h
    cases h
    simp only [exports_eq]
    exact .all hCountries hBanks hCompile

theorem prepare_of_plans {outputs : List Output} (h : job.Plans tree fullReseed p outputs q) :
    ∃ prepared, job.prepare tree fullReseed p = (.ok prepared, q) ∧ prepared.outputs = outputs := by
  cases h with
  | countries hLoad hCompile =>
    refine ⟨_, (bind_of_ok hLoad).trans (bind_of_ok hCompile), ?_⟩
    simp only [exports_eq]
    rfl
  | banks hLoad hCompile => exact ⟨_, (bind_of_ok hLoad).trans (bind_of_ok hCompile), rfl⟩
  | all hCountries hBanks hCompile =>
    refine ⟨_, (bind_of_ok hCountries).trans ((bind_of_ok hBanks).trans (bind_of_ok hCompile)), ?_⟩
    simp only [exports_eq]
    rfl

theorem outputPaths_of_plans {outputs : List Output} (h : job.Plans tree fullReseed p outputs q) :
    outputs.map Output.path = job.outputPaths.map Path.ofText := by
  cases h <;> simp [outputPaths, Function.comp_def]

theorem fails_or_plans (job : Job) (tree : Tree) (fullReseed : Bool) (p : Progress) :
    (∃ e q, job.Fails tree fullReseed p e q) ∨
      ∃ outputs q, job.Plans tree fullReseed p outputs q := by
  rcases h : job.prepare tree fullReseed p with ⟨e | prepared, q⟩
  · exact .inl ⟨e, q, fails_of_prepare h⟩
  · exact .inr ⟨prepared.outputs, q, plans_of_prepare h⟩

theorem run_of_fails {e : Error} (h : job.Fails tree fullReseed p e q) :
    job.run fullReseed tree p = (.error e, tree, q) := by
  rw [run, prepare_of_fails h]

theorem run_of_plans {outputs : List Output} (h : job.Plans tree fullReseed p outputs q) :
    (job.run fullReseed tree p).2.1 = (Output.writeAll tree outputs).2.2 ∧
      ∃ completed, (job.run fullReseed tree p).1 =
        (Output.writeAll tree outputs).1.map fun _ => Prepared.outcomes ⟨outputs, completed⟩ := by
  obtain ⟨prepared, hPrepare, rfl⟩ := prepare_of_plans h
  rw [run, hPrepare]
  rcases hWrite : Output.writeAll tree prepared.outputs with ⟨e | u, events, tree'⟩
  · simp only [hWrite]
    exact ⟨trivial, prepared.completed, rfl⟩
  · simp only [hWrite]
    exact ⟨trivial, prepared.completed, rfl⟩

/-- A job that fails while it reads or compiles leaves every file as it was. Otherwise it writes its
outputs in order up to the first that cannot be written, which is a failure of the stage, and the files
after it are those before it with just the outputs that were written. -/
theorem run_effects {job : Job} {fullReseed : Bool} {tree : Tree} {p : Progress}
    (hNull : ∀ path ∈ job.outputPaths, '\x00' ∉ path.toList) :
    ((∃ e q, job.Fails tree fullReseed p e q) ∨
      ∃ outputs q, job.Plans tree fullReseed p outputs q) ∧
    (∀ e q, job.Fails tree fullReseed p e q → job.run fullReseed tree p = (.error e, tree, q)) ∧
    ∀ outputs q, job.Plans tree fullReseed p outputs q →
      ∃ done rest tree', outputs = done ++ rest ∧ (job.run fullReseed tree p).2.1 = tree' ∧
        Output.Written tree done tree' ∧ tree'.here = tree.here ∧
        (∀ l, Output.LeftAt tree l done (tree'.entries.get? l)) ∧
        (rest = [] ∧ (∃ outcomes, (job.run fullReseed tree p).1 = .ok outcomes) ∨
          ∃ o left fault f, rest = o :: left ∧ tree'.target? o.path = .error fault ∧
            (job.run fullReseed tree p).1 = .error (.failure f) ∧ f.problem = o.problem fault ∧
            f.path = some o.path.text ∧ f.index = none ∧ f.problem.type = "ScriptIoError" ∧
            f.stage = .write) := by
  refine ⟨fails_or_plans job tree fullReseed p, fun e q => run_of_fails, fun outputs q hPlans => ?_⟩
  have hNames : ∀ o ∈ outputs, '\x00' ∉ o.path.name.toList := by
    intro o ho hMem
    have hPath : o.path ∈ job.outputPaths.map Path.ofText := by
      rw [← outputPaths_of_plans hPlans]
      exact List.mem_map_of_mem ho
    obtain ⟨path, hIn, hOf⟩ := List.mem_map.mp hPath
    rw [← hOf] at hMem
    exact hNull path hIn (Path.mem_of_mem_name_ofText hMem)
  obtain ⟨done, rest, tree', rfl, hWritten, hEnd⟩ := Output.writeAll_eq hNames tree
  obtain ⟨hTree, completed, hResult⟩ := run_of_plans hPlans
  rcases hEnd with ⟨rfl, hAll⟩ | ⟨o, left, fault, rfl, hFault, hAll⟩
  · rw [hAll] at hTree hResult
    exact ⟨done, [], tree', rfl, hTree, hWritten, hWritten.sameDirectories.here, hWritten.leftAt,
      .inl ⟨rfl, _, hResult⟩⟩
  · rw [hAll] at hTree hResult
    exact ⟨done, o :: left, tree', rfl, hTree, hWritten, hWritten.sameDirectories.here,
      hWritten.leftAt, .inr ⟨o, left, fault, _, rfl, hFault, hResult, rfl, rfl, rfl,
        o.type_problem fault, o.stage_problem fault⟩⟩

/-! ## Datasets of both tables -/

def countriesJson : Json :=
  .array (["Mali", "mALI ", "Togo"].map fun name => .object [(some "name", .string (some "Franc")),
    (some "code", .string (some "XOF")), (some "country", .string (some name))])

def banksJson : Json :=
  .object [(some "identifiers", .array (["togo", "3b0e6c1e-1f6a-4d8e-9a51-0e3c2f1d7a11", " Mali"].map
    fun d => .string (some d)))]

def datasets : Tree :=
  .ofEntries [] [(["c.json"], .file (Text.Utf8.encode (countriesJson.indented ++ "\n"))),
    (["b.json"], .file (Text.Utf8.encode (banksJson.indented ++ "\n")))]

def ofDatasets (banksOutput : String) (identifiersOutput : Option String) : Job :=
  .all "c.json" "b.json" "c.sql" banksOutput identifiersOutput none

theorem plainIn_countriesJson : countriesJson.PlainIn Json.nestingLimit := by
  refine .array (List.forall_mem_map.mpr fun name _ => .object ?_ ?_)
  · simp
  · simp [Json.PlainIn.string]

theorem plainIn_banksJson : banksJson.PlainIn Json.nestingLimit := by
  refine .object (List.forall_mem_singleton.mpr ⟨_, rfl⟩) (List.forall_mem_singleton.mpr (.array ?_))
  exact List.forall_mem_map.mpr fun d _ => .string d

theorem readJson_countries : Dataset.readJson datasets "c.json" = .ok countriesJson :=
  Dataset.readJson_print plainIn_countriesJson rfl

theorem readJson_banks : Dataset.readJson datasets "b.json" = .ok banksJson :=
  Dataset.readJson_print plainIn_banksJson rfl

theorem loadCountries_datasets : ∃ q,
    Dataset.loadCountries datasets "c.json" .counting = (.ok spelledCountries, q) ∧
      Dataset.SameSupplies .counting q ∧ q.companies = Progress.counting.companies := by
  rw [Dataset.loadCountries, readJson_countries, bind_of_ok (ofResult_apply _ _)]
  exact ⟨_, rfl, ⟨rfl, rfl⟩, rfl⟩

theorem loadBanks_datasets {p : Progress} (hCompanies : p.companies = Progress.counting.companies) :
    ∃ q, Dataset.loadBanks datasets "b.json" none p = (.ok spelledBanks, q) ∧
      Dataset.SameSupplies p q := by
  have hName : ∀ i, (Dataset.namesFor none).name p i = " Bank" := by
    intro i
    have hCompany : (Dataset.namesFor none).name p i = p.companies.get i ++ " Bank" := rfl
    rw [hCompany, hCompanies]
    rfl
  have hBlank : ∀ d ∈ ["togo", "3b0e6c1e-1f6a-4d8e-9a51-0e3c2f1d7a11", " Mali"],
      Text.isBlankText d = false := by decide
  have hNames : ∀ i < 3, (Dataset.namesFor none).name p i ≠ "" := by
    intro i _
    rw [hName]
    decide
  obtain ⟨q, hLoad, hSame⟩ := Dataset.loadBanks_texts readJson_banks rfl hBlank hNames
  simp only [hName] at hLoad
  exact ⟨q, hLoad, hSame⟩

theorem plans_datasets (banksOutput : String) (identifiersOutput : Option String) :
    ∃ q, (ofDatasets banksOutput identifiersOutput).Plans datasets false .counting
      (⟨.script, .ofText "c.sql", spelledCountrySet⟩ ::
        (identifiersOutput.toList.map fun path => ⟨.identifiers, .ofText path, spelledCountrySet⟩) ++
          [⟨.script, .ofText banksOutput, spelledBankSet⟩]) q := by
  obtain ⟨p, hCountries, hFirst, hCompanies⟩ := loadCountries_datasets
  obtain ⟨q, hBanks, hSecond⟩ := loadBanks_datasets hCompanies
  obtain ⟨r, hCompile⟩ := compileSeed_spelled (hSecond.identifiers.trans hFirst.identifiers)
    (hSecond.issued.trans hFirst.issued)
  exact ⟨r, .all hCountries hBanks hCompile⟩

/-- The second output has no directory to go to. The first one stands, and all else is as it was. -/
theorem run_effects_missingParent : ∃ q f,
    (ofDatasets "x/b.sql" none).Plans datasets false .counting
        [⟨.script, .ofText "c.sql", spelledCountrySet⟩, ⟨.script, .ofText "x/b.sql", spelledBankSet⟩] q ∧
      ((ofDatasets "x/b.sql" none).run false datasets .counting).1 = .error (.failure f) ∧
      f.stage = .write ∧ f.message =
        "Failed to write seed script: Parent directory does not exist: x (path=\'x/b.sql\')" ∧
      ((ofDatasets "x/b.sql" none).run false datasets .counting).2.1.entries.get? ["c.sql"] =
        some (.file (Text.Utf8.encode spelledCountrySet.script)) ∧
      ∀ l, l ≠ ["c.sql"] →
        ((ofDatasets "x/b.sql" none).run false datasets .counting).2.1.entries.get? l =
          datasets.entries.get? l := by
  obtain ⟨q, hPlans⟩ := plans_datasets "x/b.sql" none
  have hNull : ∀ path ∈ (ofDatasets "x/b.sql" none).outputPaths, '\x00' ∉ path.toList := by decide
  have hPlace : datasets.place? (.ofText "c.sql") = some ["c.sql"] := rfl
  have hMissing : ∀ bytes, (datasets.put ["c.sql"] (.file bytes)).target? (.ofText "x/b.sql") =
      .error (.missingParent "x") := fun _ => rfl
  have hMessage : Failure.message
      ⟨.scriptUnwritable (.missingParent "x"), some (Path.ofText "x/b.sql").text, none⟩ =
        "Failed to write seed script: Parent directory does not exist: x (path=\'x/b.sql\')" := by
    decide +kernel
  have hFirst : Output.Written datasets [⟨.script, .ofText "c.sql", spelledCountrySet⟩] _ :=
    .cons rfl .script (.nil _)
  obtain ⟨done, rest, tree', hSplit, hTree, hWritten, -, hLeft, hEnd⟩ :=
    (run_effects hNull).2.2 _ _ hPlans
  have hStop : ∀ o ∈ rest.head?, ∀ l, tree'.target? o.path ≠ .ok l := by
    rcases hEnd with ⟨rfl, -⟩ | ⟨o, left, fault, f, rfl, hFault, -⟩
    · nofun
    · rintro _ ⟨⟩ l hOk
      cases hFault.symm.trans hOk
  have hSame : done ++ rest = [⟨.script, .ofText "c.sql", spelledCountrySet⟩] ++
      [⟨.script, .ofText "x/b.sql", spelledBankSet⟩] := hSplit.symm
  obtain ⟨rfl, rfl, rfl⟩ := hWritten.unique hFirst hSame hStop (by
    rintro _ ⟨⟩ l hOk
    cases (hMissing _).symm.trans hOk)
  rw [hTree]
  rcases hEnd with ⟨⟨⟩, -⟩ | ⟨_, _, fault, f, ⟨⟩, hFault, hError, hProblem, hPath, hIndex, -, hStage⟩
  cases (hMissing _).symm.trans hFault
  obtain ⟨problem, path, index⟩ := f
  cases hProblem
  cases hPath
  cases hIndex
  refine ⟨q, _, hPlans, hError, hStage, hMessage, ?_, fun l hl => ?_⟩
  · obtain ⟨-, bytes, ⟨⟩, hContent⟩ | ⟨hNone, -⟩ := (hLeft ["c.sql"]).of_singleton
    · exact hContent
    · exact absurd hPlace hNone
  · obtain ⟨hGoes, -⟩ | ⟨-, hContent⟩ := (hLeft l).of_singleton
    · exact absurd (Option.some.inj (hGoes.symm.trans hPlace)) hl
    · exact hContent

end Job
end SeedScript
