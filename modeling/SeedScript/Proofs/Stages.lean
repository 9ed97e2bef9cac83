import SeedScript.Proofs.Dataset
import SeedScript.Proofs.Effects
import SeedScript.Proofs.Json.Limits

/-!
# The stages of errors

An error of a job is a failure of the stage in which the job is: it reads, compiles or writes. The only
others are the limits that a dataset can go beyond, and the character NUL in the name of an output.
-/

namespace SeedScript

open Files (Path Tree)

/-! ## Results and errors -/

namespace Except

variable {ε ε' α β : Type} {x : Except ε α} {a : α} {b : β} {e : ε}

theorem bind_eq_ok_iff {f : α → Except ε β} :
    x.bind f = .ok b ↔ ∃ a, x = .ok a ∧ f a = .ok b := by
  cases x <;> simp [Except.bind]

theorem bind_eq_error_iff {f : α → Except ε β} :
    x.bind f = .error e ↔ x = .error e ∨ ∃ a, x = .ok a ∧ f a = .error e := by
  cases x <;> simp [Except.bind]

theorem map_eq_ok_iff {f : α → β} : x.map f = .ok b ↔ ∃ a, x = .ok a ∧ f a = b := by
  cases x <;> simp [Except.map]

theorem map_eq_error_iff {f : α → β} : x.map f = .error e ↔ x = .error e := by
  cases x <;> simp [Except.map]

theorem mapError_eq_ok_iff {f : ε → ε'} : x.mapError f = .ok a ↔ x = .ok a := by
  cases x <;> simp [Except.mapError]

theorem mapError_eq_error_iff {f : ε → ε'} {e' : ε'} :
    x.mapError f = .error e' ↔ ∃ e, x = .error e ∧ f e = e' := by
  cases x <;> simp [Except.mapError]

end Except

/-- An error that is a failure of a stage. -/
def Error.IsOf (s : Stage) (e : Error) : Prop :=
  ∃ f, e = .failure f ∧ f.stage = s

theorem Error.isOf_ofProblem (problem : Problem) (path : Option String) (index : Option Nat) :
    (ofProblem problem path index).IsOf problem.stage := ⟨_, rfl, rfl⟩

namespace RunStep

variable {α β : Type} {x : RunStep α} {f : α → RunStep β} {P P' : Error → Prop}

/-! ## What a step fails with -/

def FailsWith (x : RunStep α) (P : Error → Prop) : Prop :=
  ∀ ⦃p e q⦄, x p = (.error e, q) → P e

theorem FailsWith.mono (h : FailsWith x P) (hP : ∀ e, P e → P' e) : FailsWith x P' :=
  fun _ e _ hError => hP e (h hError)

theorem FailsWith.bind (hx : FailsWith x P) (hf : ∀ p a q, x p = (.ok a, q) → FailsWith (f a) P) :
    FailsWith (x >>= f) P := by
  intro p e r h
  rcases bind_eq_error_iff.mp h with hFirst | ⟨a, q, hFirst, hNext⟩
  · exact hx hFirst
  · exact hf p a q hFirst hNext

theorem failsWith_pure (a : α) : FailsWith (pure a) P := by
  intro p e q h
  cases h

theorem failsWith_report (e : Log.Event) : FailsWith (report e) P := by
  intro p e q h
  cases h

theorem failsWith_ofResult {r : Except Error α} (h : ∀ e, r = .error e → P e) :
    FailsWith (ofResult r) P := by
  intro p e q hError
  rw [ofResult_apply, Prod.mk.injEq] at hError
  exact h e hError.1

theorem failsWith_assignMany (n : Nat) : FailsWith (assignMany n) (Error.IsOf .compile) := by
  intro p e q h
  obtain ⟨k, -, -, -, rfl, -⟩ := assignMany_eq_error_iff.mp h
  exact Error.isOf_ofProblem _ _ _

end RunStep

open RunStep

/-! ## Reading -/

namespace Dataset

/-- The errors of reading that are no failures, with what they say about the dataset. -/
inductive Limit (tree : Tree) (path : String) : Error → Prop
  | integer {cs digits : List Char} : text? tree path = some cs → digits <:+: cs →
      (∀ c ∈ digits, c.isDigit = true) → Json.digitLimit < digits.length →
      Limit tree path (.integerTooLong digits.length)
  | nesting {cs : List Char} {container : Json.Kind} : text? tree path = some cs →
      Json.nestingLimit < cs.countP Json.opens → Limit tree path (.nestingTooDeep container)
  | name : tree.locate (.ofText path) = .error .nameTooLong →
      Limit tree path (.nameTooLong (Path.ofText path).text)

/-- A dataset is its value, or a failure that names the file, unless it goes beyond a limit. -/
theorem readJson_ends (tree : Tree) (path : String) :
    (∃ cs v, text? tree path = some cs ∧ Json.read cs = .ok v ∧ readJson tree path = .ok v) ∨
      (∃ f, f.problem.type = "DatasetError" ∧ f.stage = .load ∧
        f.path = some (Path.ofText path).text ∧ readJson tree path = .error (.failure f)) ∨
      ∃ e, Limit tree path e ∧ readJson tree path = .error e := by
  have hFailure (problem : Problem) (hType : problem.type = "DatasetError")
      (hStage : problem.stage = .load)
      (h : readJson tree path = .error (.ofProblem problem (Path.ofText path).text)) :
      ∃ f, f.problem.type = "DatasetError" ∧ f.stage = .load ∧
        f.path = some (Path.ofText path).text ∧ readJson tree path = .error (.failure f) :=
    ⟨⟨problem, _, none⟩, hType, hStage, rfl, h⟩
  cases hText : text? tree path with
  | none =>
    rcases readJson_of_no_text hText with ⟨hName, hRead⟩ | hRead | ⟨fault, hRead⟩
    · exact .inr (.inr ⟨_, .name hName, hRead⟩)
    · exact .inr (.inl (hFailure _ rfl rfl hRead))
    · exact .inr (.inl (hFailure _ rfl rfl hRead))
  | some cs =>
    have hRead := readJson_of_text? hText
    cases hValue : Json.read cs with
    | ok v =>
      rw [hValue] at hRead
      exact .inl ⟨cs, v, rfl, hValue, hRead⟩
    | error e =>
      have hJustified := Json.justified_of_read hValue
      rw [hValue] at hRead
      cases e with
      | malformed mistake rest => exact .inr (.inl (hFailure _ rfl rfl hRead))
      | integerTooLong n =>
        obtain ⟨hLong, digits, hInfix, rfl, hDigits⟩ := hJustified
        exact .inr (.inr ⟨_, .integer hText hInfix hDigits hLong, hRead⟩)
      | nestingTooDeep container =>
        exact .inr (.inr ⟨_, .nesting hText hJustified, hRead⟩)

theorem readJson_error {tree : Tree} {path : String} {e : Error}
    (h : readJson tree path = .error e) : e.IsOf .load ∨ Limit tree path e := by
  rcases readJson_ends tree path with ⟨cs, v, -, -, hOk⟩ | ⟨f, -, hStage, -, hError⟩ |
    ⟨e', hLimit, hError⟩
  · cases h.symm.trans hOk
  · cases h.symm.trans hError
    exact .inl ⟨f, rfl, hStage⟩
  · cases h.symm.trans hError
    exact .inr hLimit

theorem stage_of_country {entry : Json} {problem : Problem} (h : country entry = .error problem) :
    problem.stage = .load := by
  cases entry with
  | object members =>
    obtain ⟨problems, -, rfl⟩ := Except.mapError_eq_error_iff.mp h
    rfl
  | _ =>
    cases h
    rfl

theorem stage_of_bank {name : String} {entry : Json} {problem : Problem}
    (h : bank name entry = .error problem) : problem.stage = .load := by
  have hInvalid : ∀ {members : Json.Members},
      (BankRecord.ofMembers members).mapError Problem.invalidBank = .error problem →
        problem.stage = .load := by
    intro members hMembers
    obtain ⟨problems, -, rfl⟩ := Except.mapError_eq_error_iff.mp hMembers
    rfl
  cases entry with
  | string text =>
    rw [bank] at h
    split at h
    · cases h
      rfl
    · exact hInvalid h
  | object members => exact hInvalid h
  | _ =>
    cases h
    rfl

theorem stage_of_countriesFrom {entries : List Json} {index i : Nat} {problem : Problem}
    (h : countriesFrom index entries = .error (i, problem)) : problem.stage = .load := by
  induction entries generalizing index with
  | nil => cases h
  | cons entry entries ih =>
    cases hEntry : country entry with
    | error found =>
      rw [countriesFrom, hEntry] at h
      cases h
      exact stage_of_country hEntry
    | ok record =>
      simp only [countriesFrom, hEntry] at h
      exact ih (Except.map_eq_error_iff.mp h)

theorem stage_of_banksFrom {names : Nat → String} {entries : List Json} {index drawn i : Nat}
    {problem : Problem} (h : (banksFrom names index drawn entries).1 = .error (i, problem)) :
    problem.stage = .load := by
  induction entries generalizing index drawn with
  | nil => cases h
  | cons entry entries ih =>
    cases hEntry : bank (names drawn) entry with
    | error found =>
      rw [banksFrom, hEntry] at h
      cases h
      exact stage_of_bank hEntry
    | ok record =>
      simp only [banksFrom, hEntry] at h
      exact ih (Except.map_eq_error_iff.mp h)

theorem isOf_of_atEntry {α : Type} {path : String} {r : Except (Nat × Problem) α} {s : Stage}
    (hStage : ∀ i problem, r = .error (i, problem) → problem.stage = s) {e : Error}
    (h : atEntry path r = .error e) : e.IsOf s := by
  obtain ⟨⟨i, problem⟩, hAt, rfl⟩ := Except.mapError_eq_error_iff.mp h
  exact ⟨_, rfl, hStage i problem hAt⟩

variable (tree : Tree) (path : String)

theorem failsWith_loadCountries :
    FailsWith (loadCountries tree path) fun e => e.IsOf .load ∨ Limit tree path e := by
  refine (failsWith_ofResult fun e => readJson_error).bind fun _ v _ _ => ?_
  cases v with
  | array entries =>
    refine (failsWith_ofResult fun e he => ?_).bind fun _ records _ _ => ?_
    · exact .inl (isOf_of_atEntry (fun i problem => stage_of_countriesFrom) he)
    · exact (failsWith_report _).bind fun _ _ _ _ => failsWith_pure _
  | _ =>
    apply failsWith_ofResult
    intro e he
    cases he
    exact .inl (Error.isOf_ofProblem _ _ _)

theorem failsWith_loadBanks (names : Option NameSource) :
    FailsWith (loadBanks tree path names) fun e => e.IsOf .load ∨ Limit tree path e := by
  refine (failsWith_ofResult fun e => readJson_error).bind fun _ v _ _ => ?_
  cases entries? v with
  | none =>
    apply failsWith_ofResult
    intro e he
    cases he
    exact .inl (Error.isOf_ofProblem _ _ _)
  | some entries =>
    have hSource : FailsWith (sourceFor names entries) fun e => e.IsOf .load ∨ Limit tree path e := by
      intro p e q h
      obtain ⟨r, hOk, -⟩ := sourceFor_eq names entries p
      cases h.symm.trans hOk
    have hBanks : ∀ source, FailsWith (nameBanks path entries source) fun e =>
        e.IsOf .load ∨ Limit tree path e := by
      intro source p e q h
      rw [nameBanks, Prod.mk.injEq] at h
      exact .inl (isOf_of_atEntry (fun i problem => stage_of_banksFrom) h.1)
    refine hSource.bind fun _ source _ _ => (hBanks source).bind fun _ records _ _ => ?_
    exact (failsWith_report _).bind fun _ _ _ _ => failsWith_pure _

end Dataset

/-! ## Compiling -/

theorem failsWith_compileCountries (records : List CountryRecord) (fullReseed : Bool) :
    FailsWith (compileCountries records fullReseed) (Error.IsOf .compile) := by
  intro p e q h
  rcases hAssign : assignMany records.length p with ⟨e' | ids, r⟩
  · cases h.symm.trans (compileCountries_of_error hAssign fullReseed)
    exact failsWith_assignMany _ hAssign
  · obtain ⟨hFresh, -, -⟩ := assignMany_eq_ok_iff.mp hAssign
    cases h.symm.trans (compileCountries_of_fresh hFresh fullReseed)

theorem isOf_of_resolveAll {r : Resolver} {ds : List String} {e : Error}
    (h : r.resolveAll ds = .error e) : e.IsOf .compile := by
  obtain ⟨f, rfl, -, hStage⟩ := Resolver.failure_of_resolveAll h
  exact ⟨f, rfl, hStage⟩

theorem failsWith_compileBanks (records : List BankRecord) (r : Resolver) (fullReseed : Bool) :
    FailsWith (compileBanks records r fullReseed) (Error.IsOf .compile) := by
  intro p e q h
  cases hResolve : r.resolveAll (records.map BankRecord.countryDiscriminator) with
  | error e' =>
    cases h.symm.trans (compileBanks_of_unresolved hResolve fullReseed p)
    exact isOf_of_resolveAll hResolve
  | ok countries =>
    rcases hAssign : assignMany records.length p with ⟨e' | ids, p'⟩
    · cases h.symm.trans (compileBanks_of_repeated hResolve hAssign fullReseed)
      exact failsWith_assignMany _ hAssign
    · obtain ⟨hFresh, -, -⟩ := assignMany_eq_ok_iff.mp hAssign
      cases h.symm.trans (compileBanks_of_resolved hResolve hFresh fullReseed)

theorem failsWith_compileSeed (countries : List CountryRecord) (banks : List BankRecord)
    (fullReseed : Bool) : FailsWith (compileSeed countries banks fullReseed) (Error.IsOf .compile) := by
  refine (failsWith_compileCountries countries fullReseed).bind fun p s q hCountries => ?_
  obtain ⟨-, rfl, -⟩ := compileCountries_eq_ok_iff.mp hCountries
  refine FailsWith.bind ?_ fun _ r _ _ => ?_
  · apply failsWith_ofResult
    intro e he
    have hLength : countries.length = (p.draws countries.length).length := (p.length_draws _).symm
    cases he.symm.trans (Resolver.ofCountries_of_length hLength)
  · exact (failsWith_compileBanks banks r fullReseed).bind fun _ _ _ _ => failsWith_pure _

/-! ## Writing -/

namespace Output

theorem write_error {o : Output} {tree tree' : Tree} {e : Error}
    (h : o.write tree = (.error e, tree')) :
    e.IsOf .write ∨ e = .nullInName ∧ '\x00' ∈ o.path.name.toList := by
  rw [write] at h
  split at h
  · next hNull =>
    cases h
    rw [Bool.and_eq_true, List.contains_iff_mem] at hNull
    exact .inr ⟨rfl, hNull.2⟩
  · rcases hWrite : tree.write o.path o.bytes with ⟨fault | u, tree''⟩
    · rw [hWrite] at h
      cases h
      exact .inl ⟨_, rfl, o.stage_problem fault⟩
    · rw [hWrite] at h
      cases h

theorem writeAll_error {tree : Tree} {outputs : List Output} {e : Error}
    (h : (writeAll tree outputs).1 = .error e) :
    e.IsOf .write ∨ e = .nullInName ∧ ∃ o ∈ outputs, '\x00' ∈ o.path.name.toList := by
  induction outputs generalizing tree with
  | nil => cases h
  | cons o outputs ih =>
    rcases hWrite : o.write tree with ⟨e' | u, tree'⟩
    · rw [writeAll_of_error hWrite] at h
      cases h
      rcases write_error hWrite with hStage | ⟨rfl, hNull⟩
      · exact .inl hStage
      · exact .inr ⟨rfl, o, List.mem_cons_self, hNull⟩
    · rw [writeAll_of_ok hWrite] at h
      rcases ih h with hStage | ⟨rfl, o', ho', hNull⟩
      · exact .inl hStage
      · exact .inr ⟨rfl, o', List.mem_cons_of_mem _ ho', hNull⟩

end Output

/-! ## Jobs -/

namespace Job

def inputPaths : Job → List String
  | countries input _ _ => [input]
  | banks input _ _ => [input]
  | all countriesInput banksInput _ _ _ _ => [countriesInput, banksInput]

/-- Reads what a job is about; countries or banks that it has not are none. -/
def load (tree : Tree) : Job → RunStep (List CountryRecord × List BankRecord)
  | countries input _ _ => do
    let records ← Dataset.loadCountries tree input
    pure (records, [])
  | banks input _ names => do
    let records ← Dataset.loadBanks tree input names
    pure ([], records)
  | all countriesInput banksInput _ _ _ names => do
    let countries ← Dataset.loadCountries tree countriesInput
    let banks ← Dataset.loadBanks tree banksInput names
    pure (countries, banks)

def compile (fullReseed : Bool) (job : Job) (records : List CountryRecord × List BankRecord) :
    RunStep Prepared :=
  match job with
  | countries input output identifiersOutput => do
    let set ← compileCountries records.1 fullReseed
    pure ⟨script output set :: exports identifiersOutput set,
      completedOne "countries" input output set⟩
  | banks input output _ => do
    let set ← compileBanks records.2 {} fullReseed
    pure ⟨[script output set], completedOne "banks" input output set⟩
  | all _ _ countriesOutput banksOutput identifiersOutput _ => do
    let (countrySet, bankSet) ← compileSeed records.1 records.2 fullReseed
    pure ⟨script countriesOutput countrySet :: exports identifiersOutput countrySet ++
        [script banksOutput bankSet],
      completed [("job", Log.Event.text "all")] [("countries", Log.Event.count countrySet.rowCount),
        ("banks", Log.Event.count bankSet.rowCount)]⟩

theorem prepare_eq (job : Job) (tree : Tree) (fullReseed : Bool) :
    job.prepare tree fullReseed = job.load tree >>= job.compile fullReseed := by
  cases job <;> simp only [prepare, load, compile, bind_assoc, pure_bind]

variable (tree : Tree) (fullReseed : Bool) (job : Job) (p : Progress)

/-- A job ends in an error in a stage. -/
inductive FailsIn : Stage → Error → Prop
  | load {e : Error} {q : Progress} : job.load tree p = (.error e, q) → FailsIn .load e
  | compile {records : List CountryRecord × List BankRecord} {q r : Progress} {e : Error} :
      job.load tree p = (.ok records, q) → job.compile fullReseed records q = (.error e, r) →
      FailsIn .compile e
  | write {prepared : Prepared} {q : Progress} {e : Error} :
      job.prepare tree fullReseed p = (.ok prepared, q) →
      (Output.writeAll tree prepared.outputs).1 = .error e → FailsIn .write e

variable {tree : Tree} {fullReseed : Bool} {job : Job} {p q : Progress} {e : Error}

theorem failsIn_of_run {tree' : Tree} (h : job.run fullReseed tree p = (.error e, tree', q)) :
    ∃ s, job.FailsIn tree fullReseed p s e := by
  rw [run] at h
  rcases hPrepare : job.prepare tree fullReseed p with ⟨e' | prepared, q'⟩
  · rw [hPrepare] at h
    cases h
    rw [prepare_eq] at hPrepare
    rcases bind_eq_error_iff.mp hPrepare with hLoad | ⟨records, r, hLoad, hCompile⟩
    · exact ⟨.load, .load hLoad⟩
    · exact ⟨.compile, .compile hLoad hCompile⟩
  · rw [hPrepare] at h
    rcases hWrite : Output.writeAll tree prepared.outputs with ⟨e' | u, events, tree''⟩
    · simp only [hWrite] at h
      cases h
      exact ⟨.write, .write hPrepare (by rw [hWrite])⟩
    · simp only [hWrite] at h
      cases h

theorem failsWith_load (job : Job) (tree : Tree) : FailsWith (job.load tree) fun e =>
    e.IsOf .load ∨ ∃ path ∈ job.inputPaths, Dataset.Limit tree path e := by
  have hCountries : ∀ path ∈ job.inputPaths, FailsWith (Dataset.loadCountries tree path) fun e =>
      e.IsOf .load ∨ ∃ path ∈ job.inputPaths, Dataset.Limit tree path e :=
    fun path hPath => (Dataset.failsWith_loadCountries tree path).mono fun e =>
      Or.imp_right fun hLimit => ⟨path, hPath, hLimit⟩
  have hBanks : ∀ path ∈ job.inputPaths, ∀ names, FailsWith (Dataset.loadBanks tree path names)
      fun e => e.IsOf .load ∨ ∃ path ∈ job.inputPaths, Dataset.Limit tree path e :=
    fun path hPath names => (Dataset.failsWith_loadBanks tree path names).mono fun e =>
      Or.imp_right fun hLimit => ⟨path, hPath, hLimit⟩
  cases job with
  | countries input output identifiersOutput =>
    exact (hCountries input (by simp [inputPaths])).bind fun _ _ _ _ => failsWith_pure _
  | banks input output names =>
    exact (hBanks input (by simp [inputPaths]) names).bind fun _ _ _ _ => failsWith_pure _
  | all countriesInput banksInput countriesOutput banksOutput identifiersOutput names =>
    refine (hCountries countriesInput (by simp [inputPaths])).bind fun _ _ _ _ => ?_
    exact (hBanks banksInput (by simp [inputPaths]) names).bind fun _ _ _ _ => failsWith_pure _

theorem failsWith_compile (job : Job) (fullReseed : Bool)
    (records : List CountryRecord × List BankRecord) :
    FailsWith (job.compile fullReseed records) (Error.IsOf .compile) := by
  cases job with
  | countries input output identifiersOutput =>
    exact (failsWith_compileCountries _ _).bind fun _ _ _ _ => failsWith_pure _
  | banks input output names =>
    exact (failsWith_compileBanks _ _ _).bind fun _ _ _ _ => failsWith_pure _
  | all countriesInput banksInput countriesOutput banksOutput identifiersOutput names =>
    exact (failsWith_compileSeed _ _ _).bind fun _ _ _ _ => failsWith_pure _

theorem null_of_plans {outputs : List Output} (h : job.Plans tree fullReseed p outputs q)
    {o : Output} (ho : o ∈ outputs) (hNull : '\x00' ∈ o.path.name.toList) :
    ∃ path ∈ job.outputPaths, '\x00' ∈ path.toList := by
  have hPath : o.path ∈ job.outputPaths.map Path.ofText := by
    rw [← outputPaths_of_plans h]
    exact List.mem_map_of_mem ho
  obtain ⟨path, hIn, hOf⟩ := List.mem_map.mp hPath
  rw [← hOf] at hNull
  exact ⟨path, hIn, Path.mem_of_mem_name_ofText hNull⟩

/-- The error of a stage is a failure of the stage, or else a dataset is beyond a limit or an output has
a name with the character NUL. -/
theorem isOf_of_failsIn {s : Stage} (h : job.FailsIn tree fullReseed p s e) :
    e.IsOf s ∨ (∃ path ∈ job.inputPaths, Dataset.Limit tree path e) ∨
      e = .nullInName ∧ ∃ path ∈ job.outputPaths, '\x00' ∈ path.toList := by
  cases h with
  | load hLoad =>
    rcases failsWith_load job tree hLoad with hStage | hLimit
    · exact .inl hStage
    · exact .inr (.inl hLimit)
  | compile hLoad hCompile => exact .inl (failsWith_compile job fullReseed _ hCompile)
  | write hPrepare hWrite =>
    rcases Output.writeAll_error hWrite with hStage | ⟨rfl, o, ho, hNull⟩
    · exact .inl hStage
    · exact .inr (.inr ⟨rfl, null_of_plans (plans_of_prepare hPrepare) ho hNull⟩)

end Job
end SeedScript
