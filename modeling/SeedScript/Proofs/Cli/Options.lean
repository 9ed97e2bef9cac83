import SeedScript.Proofs.Cli.Reading
import SeedScript.Proofs.Ending
import SeedScript.Proofs.Log.Levels
import SeedScript.Proofs.Settings.Sources

/-!
# Options and settings

The job of a run comes from its arguments, from the environment, from the settings file and from the
defaults. An option that is given more than once has the value that is given last, and options go before
settings. What counts as not given is not the same for all: an empty text is no path and no locale, yet it is
an answer for the export of identifiers, and 0 is a seed. Main statement: the job that these rules describe is
the one that is run.
-/

namespace SeedScript.Cli

open Settings (Sources)

variable {given : List (OptionSpec × Given)} {o : OptionSpec} {x : Given} {p : Parsed}

/-! ## What is given last -/

/-- An option is given something, and nothing after that. -/
def GivenLast (given : List (OptionSpec × Given)) (o : OptionSpec) (x : Given) : Prop :=
  ∃ before after, given = before ++ (o, x) :: after ∧ ∀ y ∈ after, y.1 ≠ o

def NotGiven (given : List (OptionSpec × Given)) (o : OptionSpec) : Prop :=
  ∀ y ∈ given, y.1 ≠ o

theorem last?_eq_some_iff : p.last? o = some x ↔ GivenLast p.given o x := by
  unfold Parsed.last?
  rw [List.lookup_eq_some_iff]
  constructor
  · rintro ⟨after, before, hGiven, hNone⟩
    refine ⟨before.reverse, after.reverse, ?_, ?_⟩
    · rw [← List.reverse_reverse p.given, hGiven, List.reverse_append, List.reverse_cons,
        List.append_assoc, List.singleton_append]
    · intro y hMem hEq
      exact (bne_iff_ne.mp (hNone y (List.mem_reverse.mp hMem))) hEq.symm
  · rintro ⟨before, after, hGiven, hNone⟩
    refine ⟨after.reverse, before.reverse, ?_, ?_⟩
    · rw [hGiven, List.reverse_append, List.reverse_cons, List.append_assoc, List.singleton_append]
    · intro y hMem
      exact bne_iff_ne.mpr (hNone y (List.mem_reverse.mp hMem)).symm

theorem last?_eq_none_iff : p.last? o = none ↔ NotGiven p.given o := by
  unfold Parsed.last?
  rw [List.lookup_eq_none_iff]
  simp only [List.mem_reverse, bne_iff_ne]
  exact forall₂_congr fun y _ => ne_comm

theorem has_iff : p.has o = true ↔ ∃ x, (o, x) ∈ p.given := by
  unfold Parsed.has
  cases hLast : p.last? o with
  | none =>
    have hNot := last?_eq_none_iff.mp hLast
    refine iff_of_false Bool.false_ne_true ?_
    rintro ⟨x, hMem⟩
    exact hNot _ hMem rfl
  | some x =>
    obtain ⟨before, after, hGiven, -⟩ := last?_eq_some_iff.mp hLast
    refine iff_of_true rfl ⟨x, ?_⟩
    rw [hGiven]
    exact List.mem_append_right before List.mem_cons_self

/-! ## What options come to -/

/-- An option comes to what is meant by what is given last, or else to its fallback. -/
inductive ComesTo {α : Type} (given : List (OptionSpec × Given)) (o : OptionSpec) (fallback : α)
    (Means : Given → α → Prop) : α → Prop
  | given {x : Given} {a : α} : GivenLast given o x → Means x a → ComesTo given o fallback Means a
  | fallback : NotGiven given o → ComesTo given o fallback Means fallback

theorem comesTo_iff {α : Type} {fallback a : α} {Means : Given → α → Prop} {f : Given → α}
    (hMeans : ∀ x, (o, x) ∈ p.given → ∀ a, Means x a ↔ f x = a) :
    ComesTo p.given o fallback Means a ↔ (p.last? o).elim fallback f = a := by
  have hMem {x : Given} (h : GivenLast p.given o x) : (o, x) ∈ p.given := by
    obtain ⟨before, after, hGiven, -⟩ := h
    rw [hGiven]
    exact List.mem_append_right before List.mem_cons_self
  constructor
  · intro h
    cases h with
    | given hLast hValue =>
      rw [last?_eq_some_iff.mpr hLast, Option.elim_some]
      exact (hMeans _ (hMem hLast) a).mp hValue
    | fallback hNot => rw [last?_eq_none_iff.mpr hNot, Option.elim_none]
  · rintro rfl
    cases hLast : p.last? o with
    | none => exact .fallback (last?_eq_none_iff.mp hLast)
    | some x =>
      have hGiven := last?_eq_some_iff.mp hLast
      exact .given hGiven ((hMeans x (hMem hGiven) _).mpr rfl)

def Given.IsEmpty (x : Given) : Prop :=
  x = .text "" ∨ x = .nothing

/-- A text stands for something, and an empty one for something else. -/
inductive Given.MeansText {α : Type} (f : String → α) (empty : α) : Given → α → Prop
  | text {s : String} : s ≠ "" → MeansText f empty (.text s) (f s)
  | empty {x : Given} : x.IsEmpty → MeansText f empty x empty

inductive Given.MeansSeed : Given → Option Seed → Prop
  | number {n : Int} : MeansSeed (.number n) (some (.number n))
  | empty : MeansSeed .nothing (some .empty)

/-- The text of an option unless it is empty. -/
def TextOr (given : List (OptionSpec × Given)) (o : OptionSpec) (fallback text : String) : Prop :=
  ComesTo given o fallback (Given.MeansText id fallback) text

/-- The path of an export. An empty one disables it, whatever the fallback. -/
def ExportOr (given : List (OptionSpec × Given)) (fallback path : Option String) : Prop :=
  ComesTo given identifiersOption fallback (Given.MeansText some none) path

def SeedOr (given : List (OptionSpec × Given)) (fallback seed : Option Seed) : Prop :=
  ComesTo given seedOption fallback Given.MeansSeed seed

/-! ## Options as they are read -/

/-- The text in what is given, where a dropped one is empty. -/
def Given.text? : Given → Option String
  | .text s => some s
  | .nothing => some ""
  | .present | .number _ => none

theorem text?_eq (p : Parsed) (o : OptionSpec) : p.text? o = (p.last? o).bind Given.text? := by
  unfold Parsed.text?
  rcases p.last? o with _ | _ | _ | _ | _ <;> rfl

theorem Given.exists_text? (h : x.Suits o) (hEffect : o.effect = .text) : ∃ s, x.text? = some s := by
  cases x with
  | text s => exact ⟨s, rfl⟩
  | nothing => exact ⟨"", rfl⟩
  | present | number n => cases h.symm.trans hEffect

theorem Given.meansText_iff {α : Type} {f : String → α} {empty a : α} {s : String}
    (h : x.text? = some s) : x.MeansText f empty a ↔ (if s = "" then empty else f s) = a := by
  constructor
  · intro hMeans
    cases hMeans with
    | text hNe =>
      cases h
      exact if_neg hNe
    | empty hEmpty => rcases hEmpty with rfl | rfl <;> cases h <;> exact if_pos rfl
  · rintro rfl
    split
    · next hEmpty =>
      refine .empty ?_
      cases x with
      | text t => exact .inl (by rw [← hEmpty, Option.some.inj h])
      | nothing => exact .inr rfl
      | present | number n => cases h
    · next hNe =>
      cases x with
      | text t =>
        cases h
        exact .text hNe
      | nothing =>
        cases h
        exact absurd rfl hNe
      | present | number n => cases h

theorem textOrFallback_eq (t : Option String) (fallback : String) : (match t with
    | none | some "" => fallback
    | some s => s) = t.elim fallback fun s => if s = "" then fallback else s := by
  split
  · rw [Option.elim_none]
  · rw [Option.elim_some, if_pos rfl]
  · next s hNe => rw [Option.elim_some, if_neg hNe]

theorem optionalPath_eq (p : Parsed) (o : OptionSpec) (fallback : Option String) :
    optionalPath p o fallback = (p.text? o).elim fallback fun s => if s = "" then none else some s := by
  unfold optionalPath
  split
  · next hNone => rw [hNone, Option.elim_none]
  · next hEmpty => rw [hEmpty, Option.elim_some, if_pos rfl]
  · next path hNe hPath => rw [hPath, Option.elim_some, if_neg hNe]

section

variable (hSuits : ∀ x ∈ p.given, x.2.Suits x.1)
include hSuits

theorem comesTo_text_iff {α : Type} {f : String → α} {empty fallback a : α} (hEffect : o.effect = .text) :
    ComesTo p.given o fallback (Given.MeansText f empty) a ↔
      ((p.text? o).elim fallback fun s => if s = "" then empty else f s) = a := by
  have hRead : ((p.text? o).elim fallback fun s => if s = "" then empty else f s) =
      (p.last? o).elim fallback fun x => x.text?.elim fallback fun s => if s = "" then empty else f s := by
    rw [text?_eq]
    cases p.last? o <;> rfl
  rw [hRead]
  refine comesTo_iff fun x hMem a => ?_
  obtain ⟨s, hText⟩ := Given.exists_text? (hSuits _ hMem) hEffect
  rw [hText]
  exact Given.meansText_iff hText

theorem textOr_iff {fallback text : String} (hEffect : o.effect = .text) :
    TextOr p.given o fallback text ↔ (match p.text? o with
      | none | some "" => fallback
      | some s => s) = text := by
  rw [textOrFallback_eq]
  exact comesTo_text_iff hSuits hEffect

theorem exportOr_iff {fallback path : Option String} :
    ExportOr p.given fallback path ↔ optionalPath p identifiersOption fallback = path := by
  rw [optionalPath_eq]
  exact comesTo_text_iff hSuits rfl

theorem seedOr_iff {fallback seed : Option Seed} :
    SeedOr p.given fallback seed ↔ (givenSeed p).or fallback = seed := by
  have hRead : (givenSeed p).or fallback = (p.last? seedOption).elim fallback fun x => match x with
      | .number n => some (.number n)
      | .nothing => some .empty
      | .present | .text _ => fallback := by
    unfold givenSeed
    rcases p.last? seedOption with _ | _ | _ | _ | _ <;> rfl
  rw [hRead]
  refine comesTo_iff fun x hMem a => ?_
  have hFits := hSuits _ hMem
  cases x with
  | number n =>
    constructor
    · rintro ⟨⟩
      rfl
    · rintro rfl
      exact .number
  | nothing =>
    constructor
    · rintro ⟨⟩
      rfl
    · rintro rfl
      exact .empty
  | present | text s => cases hFits

end

/-! ## The job of a run -/

/-- The job that a command calls, and the generators of names that it makes for it. -/
inductive Command.Calls (given : List (OptionSpec × Given)) (s : Settings) :
    Command → Job → List Generator → Prop
  | countries {input output : String} {exported : Option String} :
      TextOr given inputOption (s.seedPath s.countriesDataset).text input →
      TextOr given outputOption (s.sqlPath s.countriesOutput).text output →
      ExportOr given (s.identifiersOutput.map fun name => (s.seedPath name).text) exported →
      Calls given s .countries (.countries input output exported) []
  | banks {input output locale : String} {seed : Option Seed} :
      TextOr given inputOption (s.seedPath s.banksDataset).text input →
      TextOr given outputOption (s.sqlPath s.banksOutput).text output →
      TextOr given localeOption s.nameLocale locale →
      SeedOr given (s.nameSeed.map .number) seed →
      Calls given s .banks (.banks input output (some (.companies s.bankNameSuffix))) [⟨locale, seed⟩]
  | all {countriesInput banksInput countriesOutput banksOutput locale : String}
      {exported : Option String} {seed : Option Seed} :
      TextOr given countriesInputOption (s.seedPath s.countriesDataset).text countriesInput →
      TextOr given banksInputOption (s.seedPath s.bankCountriesDataset).text banksInput →
      TextOr given countriesOutputOption (s.sqlPath s.countriesOutput).text countriesOutput →
      TextOr given banksOutputOption (s.sqlPath s.banksOutput).text banksOutput →
      ExportOr given none exported →
      TextOr given localeOption s.nameLocale locale →
      SeedOr given (s.nameSeed.map .number) seed →
      Calls given s .all (.all countriesInput banksInput countriesOutput banksOutput exported
        (some (.companies s.bankNameSuffix))) [⟨locale, seed⟩]

variable {c : Command} {s : Settings} {job : Job} {generators : List Generator}

theorem job_of_calls (hSuits : ∀ x ∈ p.given, x.2.Suits x.1)
    (h : c.Calls p.given s job generators) (start : Progress) :
    c.job p s start = (.ok job, { start with generators := start.generators ++ generators }) := by
  have hText {o : OptionSpec} {fallback text : String} := @textOr_iff o p hSuits fallback text
  cases h with
  | countries hInput hOutput hExport =>
    cases (hText rfl).mp hInput
    cases (hText rfl).mp hOutput
    cases (exportOr_iff hSuits).mp hExport
    rw [List.append_nil]
    rfl
  | banks hInput hOutput hLocale hSeed =>
    cases (hText rfl).mp hInput
    cases (hText rfl).mp hOutput
    cases (hText rfl).mp hLocale
    cases (seedOr_iff hSuits).mp hSeed
    rfl
  | all hCountriesInput hBanksInput hCountriesOutput hBanksOutput hExport hLocale hSeed =>
    cases (hText rfl).mp hCountriesInput
    cases (hText rfl).mp hBanksInput
    cases (hText rfl).mp hCountriesOutput
    cases (hText rfl).mp hBanksOutput
    cases (exportOr_iff hSuits).mp hExport
    cases (hText rfl).mp hLocale
    cases (seedOr_iff hSuits).mp hSeed
    rfl

theorem exists_calls (hSuits : ∀ x ∈ p.given, x.2.Suits x.1) (c : Command) (s : Settings) :
    ∃ job generators, c.Calls p.given s job generators := by
  have hText {o : OptionSpec} {fallback : String} (hEffect : o.effect = .text) :=
    (@textOr_iff o p hSuits fallback _ hEffect).mpr rfl
  have hExport {fallback : Option String} := (@exportOr_iff p hSuits fallback _).mpr rfl
  have hSeed {fallback : Option Seed} := (@seedOr_iff p hSuits fallback _).mpr rfl
  cases c with
  | countries => exact ⟨_, _, .countries (hText rfl) (hText rfl) hExport⟩
  | banks => exact ⟨_, _, .banks (hText rfl) (hText rfl) (hText rfl) hSeed⟩
  | all =>
    exact ⟨_, _, .all (hText rfl) (hText rfl) (hText rfl) (hText rfl) hExport (hText rfl) hSeed⟩

/-- Options and settings call for one job only. -/
theorem Command.Calls.unique {job' : Job} {generators' : List Generator}
    (hSuits : ∀ x ∈ p.given, x.2.Suits x.1) (h : c.Calls p.given s job generators)
    (h' : c.Calls p.given s job' generators') : job = job' ∧ generators = generators' := by
  have hSame := (job_of_calls hSuits h .counting).symm.trans (job_of_calls hSuits h' .counting)
  rw [Prod.mk.injEq, Except.ok.injEq] at hSame
  exact ⟨hSame.1, List.append_cancel_left (congrArg Progress.generators hSame.2)⟩

variable {m : Log.Machine} {arguments : List String} {root : Log.Root}
  {tree : Files.Tree} {file : Environment}

/-- The environment and the settings file have one variable in common, in different letter cases. -/
def mixedFile : Environment :=
  [("FINPAY_SEED_SEED_DIR", "other"), ("FINPAY_SEED_SQL_DIR", "out"), ("FINPAY_SEED_FAKER_SEED", "5")]

def mixedBanks : Json :=
  .object [(some "identifiers", .array [.string (some " Mali")])]

def mixed : Log.Machine where
  environment := [("finpay_seed_seed_dir", "data"), ("FINPAY_SEED_FAKER_LOCALE", "de_DE")]
  settingsFile := .ofText ".env"
  day := "20240101"
  timestamp := "2024-01-01T00:00:00.000000Z"
  tree := .ofEntries [] [
    ([".env"], .file (Text.Utf8.encode (Text.join "\n" (mixedFile.map fun v => v.1 ++ "=" ++ v.2)))),
    (["b c"], .file (Text.Utf8.encode (Job.countriesJson.indented ++ "\n"))),
    (["data"], .directory),
    (["data", "bank_countries.json"], .file (Text.Utf8.encode (mixedBanks.indented ++ "\n"))),
    (["out"], .directory)]

def mixedSettings : Settings where
  seedDir := "data"
  sqlDir := "out"
  nameLocale := "de_DE"
  nameSeed := some 5

def mixedGiven : List (OptionSpec × Given) :=
  [(seedOption, .number 7), (countriesInputOption, .text "a"), (banksInputOption, .nothing),
    (reseedOption, .present), (localeOption, .text ""), (countriesInputOption, .text "b c"),
    (identifiersOption, .text "x"), (seedOption, .number 0), (identifiersOption, .text "")]

theorem readFile_mixed : Settings.readFile mixed.tree mixed.settingsFile = .ok mixedFile := by
  have hChecks : (match Settings.readFile mixed.tree mixed.settingsFile with
      | .ok file => decide (file = mixedFile)
      | .error _ => false) = true := by decide +kernel
  split at hChecks
  · next file hRead => rw [hRead, of_decide_eq_true hChecks]
  · cases hChecks

theorem ofSources_mixed : Settings.ofSources ⟨mixed.environment, mixedFile⟩ = .ok mixedSettings := by
  decide +kernel

theorem setUp_mixed : mixed.setUp false = .ok (({} : Log.Root).configure 20 none, mixed.tree) := by
  have hSettings : mixed.settings = .ok mixedSettings :=
    Log.Machine.settings_eq_ok_iff.mpr ⟨mixedFile, readFile_mixed, ofSources_mixed⟩
  have hWord : Log.Meaning.ofWord (Log.levelWord mixed.environment (.ok mixedSettings)) = .level 20 := by
    decide +kernel
  have hLevel : mixed.level = .level 20 := by
    rw [Log.Machine.level, hSettings]
    exact hWord
  have hKeeps : mixed.keepsJournal = false := by decide +kernel
  apply Log.Machine.setUp_of_configure
  rw [Log.Machine.configure_eq, Option.elim_none, hLevel, hKeeps]
  rfl

def mixedJob : Job :=
  .all "b c" "data/bank_countries.json" "out/seed_countries.sql" "out/seed_banks.sql" none
    (some (.companies " Bank"))

def mixedStart : Progress :=
  { Progress.counting with generators := [⟨"de_DE", some (.number 0)⟩] }

theorem readJson_mixedCountries : Dataset.readJson mixed.tree "b c" = .ok Job.countriesJson :=
  Dataset.readJson_print Job.plainIn_countriesJson rfl

theorem readJson_mixedBanks :
    Dataset.readJson mixed.tree "data/bank_countries.json" = .ok mixedBanks := by
  have hPlain : mixedBanks.PlainIn Json.nestingLimit :=
    .object (List.forall_mem_singleton.mpr ⟨_, rfl⟩) (List.forall_mem_singleton.mpr
      (.array (List.forall_mem_singleton.mpr (.string _))))
  exact Dataset.readJson_print hPlain rfl

theorem run_mixedJob : ∃ tree q, mixedJob.run true mixed.tree mixedStart =
      (.ok [⟨"countries", .ofText "out/seed_countries.sql", 3, 3⟩,
        ⟨"banks", .ofText "out/seed_banks.sql", 1, 6⟩], tree, q) ∧
    q.generators = [⟨"de_DE", some (.number 0)⟩] := by
  have hEnd : ((mixedJob.run true mixed.tree mixedStart).1.toOption,
      (mixedJob.run true mixed.tree mixedStart).2.2.generators) =
        (some [⟨"countries", .ofText "out/seed_countries.sql", 3, 3⟩,
          ⟨"banks", .ofText "out/seed_banks.sql", 1, 6⟩], [⟨"de_DE", some (.number 0)⟩]) := by
    rw [Job.run, mixedJob, Job.prepare, Dataset.loadCountries, readJson_mixedCountries,
      Dataset.loadBanks, readJson_mixedBanks]
    decide +kernel
  rcases hRun : mixedJob.run true mixed.tree mixedStart with ⟨e | outcomes, tree, q⟩
  · rw [hRun] at hEnd
    cases hEnd
  · rw [hRun, Prod.mk.injEq] at hEnd
    obtain ⟨hOutcomes, hGenerators⟩ := hEnd
    cases hOutcomes
    exact ⟨tree, q, rfl, hGenerators⟩

end SeedScript.Cli
