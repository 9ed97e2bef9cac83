import SeedScript.Proofs.Canonical
import SeedScript.Proofs.Dataset
import SeedScript.Proofs.Results

/-!
# Banks from exported identifiers

A run for countries can export the identifiers of its rows, and a run for banks can read the export as
its dataset. The second run then has one bank for each country of the first, in the same order: what the
printer of the export, the reader of datasets and the resolver do with an identifier cancels out.
-/

namespace SeedScript

open Files (Path Tree)

/-- The records of banks that give identifiers and are named in order. -/
def namedBanks (name : Nat → String) (ids : List Identifier) : List BankRecord :=
  (ids.map Identifier.text).mapIdx fun i d => ⟨name i, d⟩

section NamedBanks

variable {name : Nat → String} {ids : List Identifier}

theorem length_namedBanks : (namedBanks name ids).length = ids.length := by
  simp [namedBanks]

theorem getElem?_namedBanks {i : Nat} {u : Identifier} (h : ids[i]? = some u) :
    (namedBanks name ids)[i]? = some ⟨name i, u.text⟩ := by
  rw [namedBanks, List.getElem?_mapIdx, List.getElem?_map, h]
  rfl

/-- Without countries to look in, identifiers are understood as they are. -/
theorem resolveAll_namedBanks :
    Resolver.resolveAll {} ((namedBanks name ids).map BankRecord.countryDiscriminator) = .ok ids := by
  refine Resolver.resolveAll_map_eq_ok_iff.mpr ⟨length_namedBanks.symm, ?_⟩
  intro j b hb
  have hj : j < ids.length := by
    rw [← length_namedBanks]
    exact (List.getElem?_eq_some_iff.mp hb).1
  have hu := List.getElem?_eq_getElem hj
  rw [getElem?_namedBanks hu] at hb
  cases hb
  refine ⟨ids[j], hu, ?_⟩
  rw [Resolver.find, Identifier.parse?_text]
  rfl

end NamedBanks

/-- The banks of a set refer to the countries of another one by one, and have these names. -/
structure StatementSet.Follows (t s : StatementSet) (name : Nat → String) : Prop where
  rows : ∃ rows, t.rows? = some rows ∧ rows.length = s.rowCount ∧
    ∀ i u, s.identifiers[i]? = some u →
      ∃ v, t.identifiers[i]? = some v ∧ rows[i]? = some [v.text, name i, u.text]
  nothing : s.rowCount = 0 → ∀ x ∈ t.statements, Sql.isInsertion x = false

theorem follows_bankSet {s : StatementSet} {ids : List Identifier} (hIds : ids.length = s.rowCount)
    (name : Nat → String) (fullReseed : Bool) :
    (bankSet (namedBanks name s.identifiers) fullReseed ids s.identifiers).Follows s name := by
  have hLength : (bankRows (namedBanks name s.identifiers) ids s.identifiers).length = s.rowCount :=
    (length_bankRows (hIds.trans length_namedBanks.symm) length_namedBanks.symm).trans
      length_namedBanks
  constructor
  · refine ⟨_, rows?_bankSet _ fullReseed ids s.identifiers, hLength, ?_⟩
    intro i u hu
    have hi : i < ids.length := by
      rw [hIds]
      exact (List.getElem?_eq_some_iff.mp hu).1
    have hv := List.getElem?_eq_getElem hi
    exact ⟨ids[i], hv, getElem?_bankRows (getElem?_namedBanks hu) hv hu⟩
  · intro hNone
    apply (says_bankSet _ fullReseed ids s.identifiers).nothing
    rw [← List.length_eq_zero_iff, hLength, hNone]

theorem compileBanks_namedBanks {s : StatementSet} {p : Progress} (hFresh : p.Fresh s.rowCount)
    (name : Nat → String) (fullReseed : Bool) :
    ∃ t q, compileBanks (namedBanks name s.identifiers) {} fullReseed p = (.ok t, q) ∧
      t.Follows s name := by
  have hLength : (namedBanks name s.identifiers).length = s.rowCount := length_namedBanks
  rw [← hLength] at hFresh
  refine ⟨_, _, compileBanks_of_resolved resolveAll_namedBanks hFresh fullReseed, ?_⟩
  exact follows_bankSet ((p.length_draws _).trans hLength) name fullReseed

theorem loadBanks_export {tree : Tree} {path : String} {s : StatementSet}
    {source : Option NameSource} {p : Progress}
    (hFile : tree.read? (.ofText path) = some (Text.Utf8.encode s.exportText))
    (hNames : ∀ i < s.rowCount, (Dataset.namesFor source).name p i ≠ "") :
    ∃ q, Dataset.loadBanks tree path source p =
        (.ok (namedBanks ((Dataset.namesFor source).name p) s.identifiers), q) ∧
      Dataset.SameSupplies p q := by
  refine Dataset.loadBanks_texts
    (Dataset.readJson_print (Dataset.plainIn_exported s) hFile) (Dataset.entries?_exported s) ?_ ?_
  · intro d hd
    obtain ⟨i, -, rfl⟩ := List.mem_map.mp hd
    exact Identifier.isBlankText_of_parse? i.parse?_text
  · rw [List.length_map]
    exact hNames

theorem NameSource.name_newBatch (s : NameSource) (p : Progress) : s.name p.newBatch = s.name p := by
  cases s <;> rfl

theorem Dataset.SameSupplies.fresh_iff {p q : Progress} (h : SameSupplies p q) (n : Nat) :
    q.Fresh n ↔ p.Fresh n := by
  rw [Progress.Fresh, Progress.Fresh, Progress.draws, Progress.draws, h.identifiers, h.issued]

namespace Job

theorem run_of_takes {job : Job} {fullReseed : Bool} {tree : Tree} {p q : Progress} {path : String}
    {s : StatementSet} {dir : Files.Location}
    (hPlans : job.Plans tree fullReseed p [⟨.script, .ofText path, s⟩] q)
    (hTakes : tree.Takes (.ofText path) dir) :
    ∃ outcome tree' q', job.run fullReseed tree p = (.ok [outcome], tree', q') ∧
      outcome.Tells ⟨.script, .ofText path, s⟩ ∧
      tree'.read? (.ofText path) = some (Text.Utf8.encode s.script) := by
  obtain ⟨l, hTarget⟩ := Files.Tree.target?_of_takes hTakes
  have hAlone : Output.Written tree ([] ++ ⟨.script, .ofText path, s⟩ :: []) _ :=
    .cons hTarget .script (.nil _)
  have hWrite := Output.writeAll_of_written hAlone (List.forall_mem_singleton.mpr hTakes.null)
  obtain ⟨completed, q', hRun⟩ := run_ok_of_plans hPlans hWrite
  obtain ⟨hTells, -⟩ := leaves_of_plans hRun hPlans
  obtain ⟨outcome, _, hTell, hRest, hOutcomes⟩ := List.forall₂_cons_right_iff.mp hTells
  cases hRest
  rw [hOutcomes] at hRun
  exact ⟨outcome, _, q', hRun, hTell,
    hAlone.read?_of_last hTakes.null (List.forall_mem_nil _) .script⟩

theorem run_of_not_target? {job : Job} {fullReseed : Bool} {tree : Tree} {p q : Progress}
    {path : String} {s : StatementSet}
    (hPlans : job.Plans tree fullReseed p [⟨.script, .ofText path, s⟩] q)
    (hNull : '\x00' ∉ (Path.ofText path).name.toList)
    (hTarget : ∀ l, tree.target? (.ofText path) ≠ .ok l) :
    ∃ e, (job.run fullReseed tree p).1 = .error e := by
  obtain ⟨-, completed, hResult⟩ := run_of_plans hPlans
  have hWrite := Output.write_eq (o := ⟨.script, .ofText path, s⟩) hNull tree
  cases hPlace : tree.target? (.ofText path) with
  | ok l => exact absurd hPlace (hTarget l)
  | error fault =>
    rw [hPlace] at hWrite
    rw [Output.writeAll_of_error hWrite] at hResult
    exact ⟨_, hResult⟩

/-- A run for banks that reads an export compiles a set that follows the set of the export. -/
theorem plans_of_export {tree : Tree} {path : String} {s : StatementSet} {names : Option NameSource}
    {start : Progress}
    (hFile : tree.read? (.ofText path) = some (Text.Utf8.encode s.exportText))
    (hNodup : (start.draws s.rowCount).Nodup)
    (hNames : ∀ i < s.rowCount, (Dataset.namesFor names).name start i ≠ "") (output : String)
    (fullReseed : Bool) :
    ∃ t r, Plans tree fullReseed (banks path output names) start.newBatch
        [⟨.script, .ofText output, t⟩] r ∧
      t.Follows s ((Dataset.namesFor names).name start) := by
  have hNames' : ∀ i < s.rowCount, (Dataset.namesFor names).name start.newBatch i ≠ "" := by
    rw [NameSource.name_newBatch]
    exact hNames
  obtain ⟨u, hBanks, hSame⟩ := loadBanks_export hFile hNames'
  rw [NameSource.name_newBatch] at hBanks
  have hFresh := (hSame.fresh_iff _).mpr ((start.fresh_newBatch_iff _).mpr hNodup)
  obtain ⟨t, r, hCompiled, hFollows⟩ :=
    compileBanks_namedBanks hFresh ((Dataset.namesFor names).name start) fullReseed
  exact ⟨t, r, .banks hBanks hCompiled, hFollows⟩

theorem export_of_run {input output path : String} {fullReseed : Bool} {tree tree' : Tree}
    {p q : Progress} {outcomes : List Outcome}
    (h : (countries input output (some path)).run fullReseed tree p = (.ok outcomes, tree', q)) :
    ∃ s r, Plans tree fullReseed (countries input output (some path)) p
        [⟨.script, .ofText output, s⟩, ⟨.identifiers, .ofText path, s⟩] r ∧
      tree'.read? (.ofText path) = some (Text.Utf8.encode s.exportText) := by
  rcases fails_or_plans (countries input output (some path)) tree fullReseed p with
    ⟨e, r, hFails⟩ | ⟨outputs, r, hPlans⟩
  · rw [run_of_fails hFails] at h
    cases h
  obtain ⟨-, hWritten, hNull⟩ := leaves_of_plans h hPlans
  cases hPlans with
  | @countries _ _ _ _ _ _ records s hLoad hCompile =>
    have hPair : Output.Written tree ([⟨.script, .ofText output, s⟩] ++
        ⟨.identifiers, .ofText path, s⟩ :: []) tree' := hWritten
    have hFile := hPair.read?_of_last (hNull _ (by simp)) (List.forall_mem_nil _) .identifiers
    exact ⟨s, r, .countries hLoad hCompile, hFile⟩

/-- When a run for countries has exported its identifiers, a run for banks that reads the export succeeds:
its banks refer to the countries of the first run one by one, and are named in order. -/
theorem banks_follow_countries {input output path : String} {fullReseed : Bool} {tree tree' : Tree}
    {p q : Progress} {outcomes : List Outcome}
    (h : (countries input output (some path)).run fullReseed tree p = (.ok outcomes, tree', q)) :
    ∃ s r, Plans tree fullReseed (countries input output (some path)) p
        [⟨.script, .ofText output, s⟩, ⟨.identifiers, .ofText path, s⟩] r ∧
      ∀ (names : Option NameSource) (fullReseed' : Bool) (start : Progress) (output' : String)
        (dir : Files.Location), tree'.Takes (.ofText output') dir →
        (start.draws s.rowCount).Nodup →
        (∀ i < s.rowCount, (Dataset.namesFor names).name start i ≠ "") →
          ∃ t outcome tree'' r' q',
            Plans tree' fullReseed' (banks path output' names) start.newBatch
              [⟨.script, .ofText output', t⟩] r' ∧
            (banks path output' names).run fullReseed' tree' start.newBatch =
              (.ok [outcome], tree'', q') ∧
            outcome.Tells ⟨.script, .ofText output', t⟩ ∧
            tree''.read? (.ofText output') = some (Text.Utf8.encode t.script) ∧
            t.Follows s ((Dataset.namesFor names).name start) := by
  obtain ⟨s, r, hPlans, hFile⟩ := export_of_run h
  refine ⟨s, r, hPlans, ?_⟩
  intro names fullReseed' start output' dir hTakes hNodup hNames
  obtain ⟨t, r', hSecond, hFollows⟩ := plans_of_export hFile hNodup hNames output' fullReseed'
  obtain ⟨outcome, tree'', q', hRun, hTell, hRead⟩ := run_of_takes hSecond hTakes
  exact ⟨t, outcome, tree'', r', q', hSecond, hRun, hTell, hRead, hFollows⟩

def onlyFile (bytes : List UInt8) : Tree :=
  .ofEntries [] [(["c.json"], .file bytes)]

def onlyCountries : Tree :=
  onlyFile (Text.Utf8.encode (countriesJson.indented ++ "\n"))

/-- What is on disk when files have been written next to a dataset. -/
theorem exists_afterExport (bytes script exported : List UInt8) : ∃ hClosed,
    ((onlyFile bytes).put ["out.sql"] (.file script)).put ["ids.json"] (.file exported) =
      ⟨[], [([], .directory), (["c.json"], .file bytes), (["out.sql"], .file script),
        (["ids.json"], .file exported)], "XXXXXXXX", hClosed⟩ := ⟨_, rfl⟩

theorem takes_afterExport (bytes script exported : List UInt8) : ∃ dir,
    (((onlyFile bytes).put ["out.sql"] (.file script)).put ["ids.json"] (.file exported)).Takes
      (.ofText "banks.sql") dir := by
  obtain ⟨hClosed, hTree⟩ := exists_afterExport bytes script exported
  rw [hTree]
  exact Files.Tree.takes_of_target? (l := ["banks.sql"]) rfl (by decide)

theorem plans_onlyCountries : ∃ q,
    Plans onlyCountries false (countries "c.json" "out.sql" (some "ids.json")) .counting
      [⟨.script, .ofText "out.sql", spelledCountrySet⟩,
        ⟨.identifiers, .ofText "ids.json", spelledCountrySet⟩] q := by
  have hRead : Dataset.readJson onlyCountries "c.json" = .ok countriesJson :=
    Dataset.readJson_print plainIn_countriesJson rfl
  obtain ⟨p, hLoad, hIdentifiers, hIssued⟩ : ∃ p,
      Dataset.loadCountries onlyCountries "c.json" .counting = (.ok spelledCountries, p) ∧
        Dataset.SameSupplies .counting p := by
    rw [Dataset.loadCountries, hRead, RunStep.bind_of_ok (RunStep.ofResult_apply _ _)]
    exact ⟨_, rfl, rfl, rfl⟩
  have hFresh : p.Fresh spelledCountries.length := by
    rw [Progress.Fresh, Progress.draws, hIdentifiers, hIssued]
    decide
  have hCompile := compileCountries_of_fresh hFresh false
  rw [Progress.draws, hIdentifiers] at hCompile
  exact ⟨_, .countries hLoad hCompile⟩

theorem run_onlyCountries : ∃ script exported outcomes q,
    (countries "c.json" "out.sql" (some "ids.json")).run false onlyCountries .counting = (.ok outcomes,
      (onlyCountries.put ["out.sql"] (.file script)).put ["ids.json"] (.file exported), q) := by
  obtain ⟨r, hPlans⟩ := plans_onlyCountries
  have hNull : ∀ path ∈ ["out.sql", "ids.json"], '\x00' ∉ (Path.ofText path).name.toList := by decide
  have hWritten : Output.Written onlyCountries [⟨.script, .ofText "out.sql", spelledCountrySet⟩,
      ⟨.identifiers, .ofText "ids.json", spelledCountrySet⟩] _ :=
    .cons rfl .script (.cons rfl .identifiers (.nil _))
  have hWrite := Output.writeAll_of_written hWritten (by simpa using hNull)
  obtain ⟨completed, q, hRun⟩ := run_ok_of_plans hPlans hWrite
  exact ⟨_, _, _, q, hRun⟩

theorem nodup_draws_counting : (Progress.counting.draws spelledCountrySet.rowCount).Nodup := by
  decide

theorem name_counting_ne (i : Nat) : (Dataset.namesFor none).name .counting i ≠ "" := by
  have hName : (Dataset.namesFor none).name .counting i = "" ++ NameSource.defaultSuffix := rfl
  rw [hName]
  decide

def threeNames : NameSource :=
  .given (.ofList ["Alpha", "Beta"] fun _ => "Gamma")

/-- The banks refer to the three countries in order, also to the two with one name. -/
theorem banks_follow_countries_threeNames :
    ∃ tree outcomes q t outcome tree' q' first second third,
      (countries "c.json" "out.sql" (some "ids.json")).run false onlyCountries .counting =
        (.ok outcomes, tree, q) ∧
      (banks "ids.json" "banks.sql" threeNames).run true tree .counting = (.ok [outcome], tree', q') ∧
      tree'.read? (.ofText "banks.sql") = some (Text.Utf8.encode (StatementSet.script t)) ∧
      t.rows? = some [[first, "Alpha", "00000000-0000-0000-0000-000000000000"],
        [second, "Beta", "00000000-0000-0000-0000-000000000001"],
        [third, "Gamma", "00000000-0000-0000-0000-000000000002"]] := by
  obtain ⟨r, hPlans⟩ := plans_onlyCountries
  obtain ⟨script, exported, outcomes, q, hRun⟩ := run_onlyCountries
  obtain ⟨dir, hTakes⟩ := takes_afterExport _ script exported
  obtain ⟨s', r', hPlans', hBanks⟩ := banks_follow_countries hRun
  cases plans_unique hPlans hPlans'
  have hNames : ∀ i < spelledCountrySet.rowCount,
      (Dataset.namesFor (some threeNames)).name .counting i ≠ "" := by decide
  obtain ⟨t, outcome, tree', r'', q', -, hRun', -, hRead, hFollows⟩ :=
    hBanks (some threeNames) true .counting "banks.sql" dir hTakes nodup_draws_counting hNames
  obtain ⟨rows, hRows, hLength, hEach⟩ := hFollows.rows
  obtain ⟨a, b, c, rfl⟩ := List.length_eq_three.mp hLength
  obtain ⟨u, -, hFirst⟩ := hEach 0 (.ofNat 0) rfl
  obtain ⟨v, -, hSecond⟩ := hEach 1 (.ofNat 1) rfl
  obtain ⟨w, -, hThird⟩ := hEach 2 (.ofNat 2) rfl
  cases hFirst
  cases hSecond
  cases hThird
  refine ⟨_, outcomes, q, t, outcome, tree', q', u.text, v.text, w.text, hRun, hRun', hRead, ?_⟩
  rw [hRows]
  rfl

/-- A name of a file that is within the limits, but not with what the name of a temporary file adds. -/
def longName : String :=
  String.ofList (List.replicate 250 'a')

theorem toList_longName : longName.toList = List.replicate 250 'a' :=
  String.toList_ofList

attribute [irreducible] longName

theorem not_mem_longName {c : Char} (h : c ≠ 'a') : c ∉ longName.toList := by
  intro hMem
  rw [toList_longName] at hMem
  exact h (List.eq_of_mem_replicate hMem)

theorem longName_ne {s : String} (h : s.toList.length < 250) : longName ≠ s := by
  rintro rfl
  rw [toList_longName, List.length_replicate] at h
  exact Nat.lt_irrefl _ h

theorem ofText_longName : Path.ofText longName = ⟨"", [longName]⟩ :=
  Path.ofText_of_not_mem (not_mem_longName (by decide)) (longName_ne (by decide))
    (longName_ne (by decide))

theorem utf8ByteSize_longName : longName.utf8ByteSize = 250 := by decide +kernel

theorem target?_longName (bytes script exported : List UInt8) (l : Files.Location) :
    (((onlyFile bytes).put ["out.sql"] (.file script)).put ["ids.json"] (.file exported)).target?
      (.ofText longName) ≠ .ok l := by
  obtain ⟨hClosed, hTree⟩ := exists_afterExport bytes script exported
  rw [hTree]
  intro h
  obtain ⟨dir, -, hFits, -⟩ := Files.Tree.target?_eq_ok_iff.mp h
  have hName := hFits.name
  obtain ⟨k, hk⟩ := Files.Tree.unusedName_eq _ dir (Path.ofText longName).name _ 0
  have hLast : (Path.ofText longName).name = longName := by
    rw [ofText_longName]
    rfl
  have hDot : (".").utf8ByteSize = 1 := by decide
  have hSalt : ("XXXXXXXX").utf8ByteSize = 8 := by decide
  have hLimit : Path.nameLimit = 255 := rfl
  rw [hk, hLast] at hName
  simp only [Files.Tree.temporaryName, String.utf8ByteSize_append, utf8ByteSize_longName, hDot, hSalt,
    hLimit] at hName
  omega

theorem locate_longName (bytes script exported : List UInt8) (tree : Tree)
    (hTree : tree =
      ((onlyFile bytes).put ["out.sql"] (.file script)).put ["ids.json"] (.file exported)) :
    (∃ dir, tree.locate (Path.ofText longName).parent = .ok dir ∧ tree.isDirectoryAt dir = true) ∧
      ∀ l, tree.locate (.ofText longName) = .ok l → tree.isDirectoryAt l = false := by
  obtain ⟨hClosed, hFiles⟩ := exists_afterExport bytes script exported
  rw [hTree, hFiles, ofText_longName]
  refine ⟨⟨[], rfl, rfl⟩, ?_⟩
  intro l hLocate
  have hText : (⟨"", [longName]⟩ : Path).text = longName := String.empty_append
  rw [Files.Tree.locate_eq_step (p := ⟨"", [longName]⟩) rfl (longName_ne (by decide))
    (not_mem_longName (by decide)) (by rw [hText, utf8ByteSize_longName]; decide)] at hLocate
  have hSize : longName.utf8ByteSize ≤ Path.nameLimit := by
    rw [utf8ByteSize_longName]
    decide
  change Files.Tree.step _ [] longName = .ok l at hLocate
  rw [Files.Tree.step_of_isDirectoryAt rfl hSize, if_neg (longName_ne (by decide))] at hLocate
  cases hLocate
  have hCountries : longName ≠ "c.json" := longName_ne (by decide)
  have hScript : longName ≠ "out.sql" := longName_ne (by decide)
  have hExport : longName ≠ "ids.json" := longName_ne (by decide)
  simp [Files.Tree.isDirectoryAt, Files.Entries.isDirectory, Files.Entries.get?_cons, hCountries,
    hScript, hExport]

/-- A run for banks fails on an output whose directory is there, if the name of its temporary file is too
long. -/
theorem banks_follow_countries_longName :
    ∃ tree outcomes q s r,
      (countries "c.json" "out.sql" (some "ids.json")).run false onlyCountries .counting =
        (.ok outcomes, tree, q) ∧
      Plans onlyCountries false (countries "c.json" "out.sql" (some "ids.json")) .counting
        [⟨.script, .ofText "out.sql", s⟩, ⟨.identifiers, .ofText "ids.json", s⟩] r ∧
      (∃ dir, tree.locate (Path.ofText longName).parent = .ok dir ∧ tree.isDirectoryAt dir = true) ∧
      (∀ l, tree.locate (.ofText longName) = .ok l → tree.isDirectoryAt l = false) ∧
      (Progress.counting.draws s.rowCount).Nodup ∧
      (∀ i < s.rowCount, (Dataset.namesFor none).name .counting i ≠ "") ∧
      ∃ e, ((banks "ids.json" longName none).run false tree .counting).1 = .error e := by
  obtain ⟨r, hPlans⟩ := plans_onlyCountries
  obtain ⟨script, exported, outcomes, q, hRun⟩ := run_onlyCountries
  obtain ⟨hParent, hApart⟩ := locate_longName _ script exported _ rfl
  obtain ⟨s', r', hPlans', hFile⟩ := export_of_run hRun
  cases plans_unique hPlans hPlans'
  have hNames : ∀ i < spelledCountrySet.rowCount, (Dataset.namesFor none).name .counting i ≠ "" :=
    fun i _ => name_counting_ne i
  obtain ⟨t, r'', hSecond, -⟩ :=
    plans_of_export hFile nodup_draws_counting hNames longName false
  have hNull : '\x00' ∉ (Path.ofText longName).name.toList := by
    rw [ofText_longName]
    exact not_mem_longName (by decide)
  have hFails := run_of_not_target? hSecond hNull (target?_longName _ script exported)
  exact ⟨_, outcomes, q, _, r, hRun, hPlans, hParent, hApart, nodup_draws_counting, hNames, hFails⟩

end Job
end SeedScript
