import SeedScript.Cli.Run
import SeedScript.Proofs.Effects
import SeedScript.Proofs.Script
import SeedScript.Proofs.Text.Utf8

/-!
# What a job tells about its files

A job that succeeds tells for each of its scripts where it is, of which table, and how much it holds.
The script of a set is read back into as many statements and rows, and stands at its path, unless a later
output of the same job has gone to the same place: outputs replace what they find there, and no two
paths of a job are compared with each other.
-/

namespace SeedScript

open Files (Path Tree)

/-- The script of a set is cut into its statements, and they insert one row for each identifier. -/
structure StatementSet.ReadsBack (s : StatementSet) : Prop where
  cut : Sql.statements? s.script = some s.statements
  rows : ∃ rows, s.rows? = some rows ∧ rows.length = s.rowCount

theorem readsBack_countrySet {records : List CountryRecord} {ids : List Identifier}
    (h : ids.length = records.length) (fullReseed : Bool) :
    (countrySet records fullReseed ids).ReadsBack where
  cut := (says_countrySet records fullReseed ids).cut
  rows := ⟨_, rows?_countrySet records fullReseed ids, (length_countryRows h).trans h.symm⟩

theorem readsBack_bankSet {records : List BankRecord} {ids countries : List Identifier}
    (hIds : ids.length = records.length) (hCountries : countries.length = records.length)
    (fullReseed : Bool) : (bankSet records fullReseed ids countries).ReadsBack where
  cut := (says_bankSet records fullReseed ids countries).cut
  rows := ⟨_, rows?_bankSet records fullReseed ids countries,
    (length_bankRows hIds hCountries).trans hIds.symm⟩

theorem readsBack_of_compileCountries {records : List CountryRecord} {fullReseed : Bool}
    {p q : Progress} {s : StatementSet}
    (h : compileCountries records fullReseed p = (.ok s, q)) : s.ReadsBack := by
  obtain ⟨-, rfl, -⟩ := compileCountries_eq_ok_iff.mp h
  exact readsBack_countrySet (p.length_draws _) fullReseed

theorem readsBack_of_compileBanks {records : List BankRecord} {r : Resolver} {fullReseed : Bool}
    {p q : Progress} {s : StatementSet}
    (h : compileBanks records r fullReseed p = (.ok s, q)) : s.ReadsBack := by
  obtain ⟨countries, hResolve, -, rfl, -⟩ := compileBanks_eq_ok_iff.mp h
  obtain ⟨hCountries, -⟩ := Resolver.resolveAll_map_eq_ok_iff.mp hResolve
  exact readsBack_bankSet (p.length_draws _) hCountries fullReseed

theorem readsBack_of_compileSeed {countries : List CountryRecord} {banks : List BankRecord}
    {fullReseed : Bool} {p q : Progress} {s t : StatementSet}
    (h : compileSeed countries banks fullReseed p = (.ok (s, t), q)) :
    s.ReadsBack ∧ t.ReadsBack := by
  obtain ⟨r, found, -, -, hResolve, rfl, rfl, -⟩ := compileSeed_eq_ok_iff.mp h
  obtain ⟨hFound, -⟩ := Resolver.resolveAll_map_eq_ok_iff.mp hResolve
  exact ⟨readsBack_countrySet (p.length_draws _) fullReseed,
    readsBack_bankSet (Progress.length_draws _ _) hFound fullReseed⟩

/-- An outcome is the truth about the script of an output. -/
structure Outcome.Tells (x : Outcome) (o : Output) : Prop where
  path : x.path = o.path
  table : x.table = o.set.table
  cut : Sql.statements? o.set.script = some o.set.statements
  statementCount : o.set.statements.length = x.statementCount
  rows : ∃ rows, o.set.rows? = some rows ∧ rows.length = x.rowCount

theorem Prepared.tells_outcomes {p : Prepared} (h : ∀ o ∈ p.outputs, o.set.ReadsBack) :
    List.Forall₂ Outcome.Tells p.outcomes (p.outputs.filter (·.product = .script)) := by
  obtain ⟨outputs, event⟩ := p
  unfold Prepared.outcomes
  induction outputs with
  | nil => exact .nil
  | cons o outputs ih =>
    obtain ⟨hFirst, hRest⟩ := List.forall_mem_cons.mp h
    obtain ⟨product, path, set⟩ := o
    cases product with
    | script => exact .cons ⟨rfl, rfl, hFirst.cut, rfl, hFirst.rows⟩ (ih hRest)
    | identifiers => exact ih hRest

namespace Job

variable {job : Job} {fullReseed : Bool} {tree tree' : Tree} {p q : Progress}

theorem readsBack_of_plans {outputs : List Output} (h : job.Plans tree fullReseed p outputs q) :
    ∀ o ∈ outputs, o.set.ReadsBack := by
  intro o ho
  cases h with
  | countries _ hCompile =>
    have hSet := readsBack_of_compileCountries hCompile
    rcases List.mem_cons.mp ho with rfl | ho
    · exact hSet
    · obtain ⟨path, -, rfl⟩ := List.mem_map.mp ho
      exact hSet
  | banks _ hCompile =>
    rw [List.mem_singleton.mp ho]
    exact readsBack_of_compileBanks hCompile
  | all _ _ hCompile =>
    obtain ⟨hCountries, hBanks⟩ := readsBack_of_compileSeed hCompile
    rcases List.mem_append.mp ho with ho | ho
    · rcases List.mem_cons.mp ho with rfl | ho
      · exact hCountries
      · obtain ⟨path, -, rfl⟩ := List.mem_map.mp ho
        exact hCountries
    · rw [List.mem_singleton.mp ho]
      exact hBanks

theorem plans_unique {outputs outputs' : List Output} {q' : Progress}
    (h : job.Plans tree fullReseed p outputs q) (h' : job.Plans tree fullReseed p outputs' q') :
    outputs = outputs' := by
  obtain ⟨prepared, hPrepare, rfl⟩ := prepare_of_plans h
  obtain ⟨prepared', hPrepare', rfl⟩ := prepare_of_plans h'
  rw [hPrepare] at hPrepare'
  cases hPrepare'
  rfl

theorem leaves_of_plans {outcomes : List Outcome} {outputs : List Output} {r : Progress}
    (h : job.run fullReseed tree p = (.ok outcomes, tree', q))
    (hPlans : job.Plans tree fullReseed p outputs r) :
    List.Forall₂ Outcome.Tells outcomes (outputs.filter (·.product = .script)) ∧
      Output.Written tree outputs tree' ∧ ∀ o ∈ outputs, '\x00' ∉ o.path.name.toList := by
  have hReads := readsBack_of_plans hPlans
  obtain ⟨prepared, hPrepare, rfl⟩ := prepare_of_plans hPlans
  rw [run, hPrepare] at h
  rcases hWrite : Output.writeAll tree prepared.outputs with ⟨e | u, events, last⟩
  · simp only [hWrite] at h
    cases h
  · simp only [hWrite] at h
    cases h
    exact ⟨prepared.tells_outcomes hReads, Output.written_of_writeAll hWrite⟩

/-- A job that succeeds tells the truth about every script that it has compiled. Every output, scripts
and export, stands at its path, unless a later one has gone to the same place. A run of the program
ends with code 0 and shows one line for each script. -/
theorem run_leaves {job : Job} {fullReseed : Bool} {tree tree' : Tree} {p q : Progress}
    {outcomes : List Outcome} (h : job.run fullReseed tree p = (.ok outcomes, tree', q)) :
    ∃ outputs r, job.Plans tree fullReseed p outputs r ∧
      List.Forall₂ Outcome.Tells outcomes (outputs.filter (·.product = .script)) ∧
      (∀ before o later, outputs = before ++ o :: later →
        (∀ x ∈ later, tree.place? x.path ≠ tree.place? o.path) →
          ∀ bytes, o.Puts bytes → tree'.read? o.path = some bytes) ∧
      ∀ (m : Log.Machine) (root : Log.Root) (start : Progress) (c : Cli.Command) (a : Cli.Parsed),
        Cli.runJob c a m.settings m.tree { start with events := [] } =
            job.run fullReseed tree p →
          (Cli.runCommand m root start c a).ending = .exit 0 ∧
            (Cli.runCommand m root start c a).output = String.join (outcomes.map fun x =>
              "Seeder generated: " ++ x.path.text ++ " (" ++ toString x.rowCount ++ " rows)\n") := by
  rcases fails_or_plans job tree fullReseed p with ⟨e, r, hFails⟩ | ⟨outputs, r, hPlans⟩
  · rw [run_of_fails hFails] at h
    cases h
  obtain ⟨hTells, hWritten, hNull⟩ := leaves_of_plans h hPlans
  refine ⟨outputs, r, hPlans, hTells, ?_, ?_⟩
  · rintro before o later rfl hLater bytes hPuts
    exact hWritten.read?_of_last (hNull o (by simp)) hLater hPuts
  · intro m root start c a hJob
    rw [h] at hJob
    unfold Cli.runCommand
    rw [hJob]
    exact ⟨rfl, rfl⟩

theorem run_ok_of_plans {outputs : List Output} {events : List Log.Event}
    (hPlans : job.Plans tree fullReseed p outputs q)
    (hWrite : Output.writeAll tree outputs = (.ok (), events, tree')) :
    ∃ completed q', job.run fullReseed tree p =
      (.ok (Prepared.outcomes ⟨outputs, completed⟩), tree', q') := by
  obtain ⟨hTree, completed, hResult⟩ := run_of_plans hPlans
  rw [hWrite] at hTree hResult
  rcases hRun : job.run fullReseed tree p with ⟨result, last, q'⟩
  rw [hRun] at hTree hResult
  cases hTree
  cases hResult
  exact ⟨completed, q', rfl⟩

theorem run_datasets : ∃ tree q,
    (ofDatasets "b.sql" (some "ids.json")).run false datasets .counting =
      (.ok [⟨"countries", .ofText "c.sql", 3, 2⟩, ⟨"banks", .ofText "b.sql", 3, 5⟩], tree, q) := by
  obtain ⟨r, hPlans⟩ := plans_datasets "b.sql" (some "ids.json")
  have hWritten : Output.Written datasets
      [⟨.script, .ofText "c.sql", spelledCountrySet⟩,
        ⟨.identifiers, .ofText "ids.json", spelledCountrySet⟩,
        ⟨.script, .ofText "b.sql", spelledBankSet⟩] _ :=
    .cons rfl .script (.cons rfl .identifiers (.cons rfl .script (.nil _)))
  have hNull : ∀ path ∈ ["c.sql", "ids.json", "b.sql"], '\x00' ∉ (Path.ofText path).name.toList := by
    decide
  have hWrite := Output.writeAll_of_written hWritten (by simpa using hNull)
  obtain ⟨completed, q, hRun⟩ := run_ok_of_plans hPlans hWrite
  exact ⟨_, q, hRun⟩

/-- Both scripts and the export are as the job has compiled them, and the outcomes say where the scripts are and
how much they hold. -/
theorem run_leaves_datasets : ∃ tree q r,
    (ofDatasets "b.sql" (some "ids.json")).run false datasets .counting =
        (.ok [⟨"countries", .ofText "c.sql", 3, 2⟩, ⟨"banks", .ofText "b.sql", 3, 5⟩], tree, q) ∧
      (ofDatasets "b.sql" (some "ids.json")).Plans datasets false .counting
        [⟨.script, .ofText "c.sql", spelledCountrySet⟩,
          ⟨.identifiers, .ofText "ids.json", spelledCountrySet⟩,
          ⟨.script, .ofText "b.sql", spelledBankSet⟩] r ∧
      tree.read? (.ofText "c.sql") = some (Text.Utf8.encode spelledCountrySet.script) ∧
      tree.read? (.ofText "ids.json") = some (Text.Utf8.encode spelledCountrySet.exportText) ∧
      tree.read? (.ofText "b.sql") = some (Text.Utf8.encode spelledBankSet.script) := by
  obtain ⟨tree, q, hRun⟩ := run_datasets
  obtain ⟨outputs, r, hPlans, -, hRead, -⟩ := run_leaves hRun
  obtain ⟨r', hExpected⟩ := plans_datasets "b.sql" (some "ids.json")
  obtain rfl := plans_unique hPlans hExpected
  have hExport : datasets.place? (.ofText "ids.json") ≠ datasets.place? (.ofText "c.sql") := by decide
  have hBanks : datasets.place? (.ofText "b.sql") ≠ datasets.place? (.ofText "c.sql") := by decide
  have hLast : datasets.place? (.ofText "b.sql") ≠ datasets.place? (.ofText "ids.json") := by decide
  refine ⟨tree, q, r, hRun, hPlans, ?_, ?_, ?_⟩
  · refine hRead [] _ _ rfl ?_ _ .script
    exact List.forall_mem_cons.mpr ⟨hExport, List.forall_mem_singleton.mpr hBanks⟩
  · refine hRead [_] _ _ rfl ?_ _ .identifiers
    exact List.forall_mem_singleton.mpr hLast
  · exact hRead [_, _] _ [] rfl (List.forall_mem_nil _) _ .script

/-! ## Paths that lead to one place -/

def noCountries : Tree :=
  .ofEntries [] [(["c.json"], .file [91, 93])]

/-- When the export goes to the path of the script, the job succeeds and tells of a script that is no
longer there. -/
theorem run_leaves_overwritten :
    ∃ outcomes tree q outputs r,
      (countries "c.json" "out.sql" (some "out.sql")).run false noCountries .counting =
        (.ok outcomes, tree, q) ∧
      (countries "c.json" "out.sql" (some "out.sql")).Plans noCountries false .counting outputs r ∧
      ∃ x ∈ outcomes, ∃ o ∈ outputs, o.product = .script ∧ x.path = o.path ∧
        tree.read? x.path ≠ some (Text.Utf8.encode o.set.script) := by
  obtain ⟨r, hPlans⟩ : ∃ r, Plans noCountries false (countries "c.json" "out.sql" (some "out.sql"))
      .counting [⟨.script, .ofText "out.sql", countrySet [] false []⟩,
        ⟨.identifiers, .ofText "out.sql", countrySet [] false []⟩] r := by
    obtain ⟨q, hLoad⟩ : ∃ q, Dataset.loadCountries noCountries "c.json" .counting = (.ok [], q) :=
      ⟨_, rfl⟩
    have hFresh : q.Fresh ([] : List CountryRecord).length := ⟨List.nodup_nil, nofun⟩
    exact ⟨_, .countries hLoad (compileCountries_of_fresh hFresh false)⟩
  have hNull : '\x00' ∉ (Path.ofText "out.sql").name.toList := by decide
  have hBoth : Output.Written noCountries ([⟨.script, .ofText "out.sql", countrySet [] false []⟩] ++
      ⟨.identifiers, .ofText "out.sql", countrySet [] false []⟩ :: []) _ :=
    .cons rfl .script (.cons rfl .identifiers (.nil _))
  have hWrite := Output.writeAll_of_written hBoth (by simpa using hNull)
  obtain ⟨completed, q, hRun⟩ := run_ok_of_plans hPlans hWrite
  refine ⟨_, _, q, _, r, hRun, hPlans, _, .head _,
    ⟨.script, .ofText "out.sql", countrySet [] false []⟩, .head _, rfl, rfl, ?_⟩
  have hRead := hBoth.read?_of_last hNull (List.forall_mem_nil _) .identifiers
  intro hSame
  have hText := Text.Utf8.encode_injective (Option.some.inj (hRead.symm.trans hSame))
  have hCut : Sql.statements? (countrySet [] false []).script =
      some (countrySet [] false []).statements := (readsBack_countrySet rfl false).cut
  have hExported : Sql.statements? (countrySet [] false []).exportText = none := by decide +kernel
  cases hExported.symm.trans ((congrArg Sql.statements? hText).trans hCut)

end Job
end SeedScript
