import SeedScript.Proofs.Stages
import SeedScript.Settings.Basic

/-!
# Where settings come from

A setting is what the text of its variable means, and the first source that has the variable gives the text:
the environment, and then the settings file. Where neither has it, the setting is its default. Names of
variables are compared without letter case, so no source may have a second spelling of one. Main statement:
what the sources give for all settings is what is read from them.
-/

namespace SeedScript

namespace Environment

variable {e : Environment} {name value : String}

/-- A variable has a value under its name in some letter case. -/
def Sets (e : Environment) (name value : String) : Prop :=
  ∃ spelling, (spelling, value) ∈ e ∧ Text.lowerCase spelling = Text.lowerCase name

def IsSpeltOnce (e : Environment) (name : String) : Prop :=
  ∀ v ∈ e, ∀ w ∈ e, Text.lowerCase v.1 = Text.lowerCase name →
    Text.lowerCase w.1 = Text.lowerCase name → v = w

theorem isSpeltOnce_of_nodup (h : (e.map fun v => Text.lowerCase v.1).Nodup) (name : String) :
    e.IsSpeltOnce name := by
  intro v hv w hw hName hName'
  exact List.inj_on_of_nodup_map h hv hw (hName.trans hName'.symm)

theorem equalsIgnoringCase_iff {s t : String} :
    Text.equalsIgnoringCase s t = true ↔ Text.lowerCase s = Text.lowerCase t :=
  beq_iff_eq

theorem sets_of_setting? (h : e.setting? name = some value) : e.Sets name value := by
  obtain ⟨v, hFind, rfl⟩ := Option.map_eq_some_iff.mp h
  have hName : Text.equalsIgnoringCase v.1 name = true := by
    have hSome := List.find?_some hFind
    exact hSome
  exact ⟨v.1, List.mem_reverse.mp (List.mem_of_find?_eq_some hFind), equalsIgnoringCase_iff.mp hName⟩

theorem not_sets_of_setting? (h : e.setting? name = none) : ¬e.Sets name value := by
  rintro ⟨spelling, hMem, hName⟩
  have hNone := List.find?_eq_none.mp (Option.map_eq_none_iff.mp h) _ (List.mem_reverse.mpr hMem)
  exact hNone (equalsIgnoringCase_iff.mpr hName)

theorem setting?_of_sets (hOnce : e.IsSpeltOnce name) (h : e.Sets name value) :
    e.setting? name = some value := by
  cases hSetting : e.setting? name with
  | none => exact absurd h (not_sets_of_setting? hSetting)
  | some other =>
    obtain ⟨spelling, hMem, hName⟩ := h
    obtain ⟨spelling', hMem', hName'⟩ := sets_of_setting? hSetting
    cases hOnce _ hMem _ hMem' hName hName'
    rfl

theorem setting?_of_not_sets (h : ∀ other, ¬e.Sets name other) : e.setting? name = none := by
  cases hSetting : e.setting? name with
  | none => rfl
  | some text => exact absurd (sets_of_setting? hSetting) (h text)

end Environment

namespace Settings

namespace Sources

variable {s : Sources} {name field : String} {t : Option String}

/-! ## Texts of variables -/

/-- The text of a variable, from the first source that has it. -/
inductive Says (s : Sources) (name : String) : Option String → Prop
  | environment {text : String} : s.environment.Sets name text → s.Says name (some text)
  | file {text : String} : (∀ other, ¬s.environment.Sets name other) → s.file.Sets name text →
      s.Says name (some text)
  | neither : (∀ other, ¬s.environment.Sets name other) → (∀ other, ¬s.file.Sets name other) →
      s.Says name none

def IsSpeltOnce (s : Sources) (name : String) : Prop :=
  s.environment.IsSpeltOnce name ∧ s.file.IsSpeltOnce name

theorem says_get? (s : Sources) (name : String) : s.Says name (s.get? name) := by
  unfold get?
  cases hEnvironment : s.environment.setting? name with
  | some text => exact .environment (Environment.sets_of_setting? hEnvironment)
  | none =>
    have hNot : ∀ other, ¬s.environment.Sets name other := fun _ =>
      Environment.not_sets_of_setting? hEnvironment
    rw [Option.none_or]
    cases hFile : s.file.setting? name with
    | some text => exact .file hNot (Environment.sets_of_setting? hFile)
    | none => exact .neither hNot fun _ => Environment.not_sets_of_setting? hFile

theorem says_iff (hOnce : s.IsSpeltOnce name) : s.Says name t ↔ s.get? name = t := by
  constructor
  · intro h
    unfold get?
    cases h with
    | environment hSets => rw [Environment.setting?_of_sets hOnce.1 hSets, Option.some_or]
    | file hNot hSets =>
      rw [Environment.setting?_of_not_sets hNot, Environment.setting?_of_sets hOnce.2 hSets,
        Option.none_or]
    | neither hNot hNot' =>
      rw [Environment.setting?_of_not_sets hNot, Environment.setting?_of_not_sets hNot',
        Option.none_or]
  · rintro rfl
    exact s.says_get? name

/-! ## Values of settings -/

variable {α : Type} {default a : α} {Means : String → α → Prop}

/-- A setting is what the text of its variable means, or else its default. -/
def Fixes (s : Sources) (name : String) (default : α) (Means : String → α → Prop) (a : α) : Prop :=
  ∃ t, s.Says name t ∧ t.elim (a = default) (Means · a)

theorem fixes_iff (hOnce : s.IsSpeltOnce name) :
    s.Fixes name default Means a ↔ (s.get? name).elim (a = default) (Means · a) := by
  simp only [Fixes, says_iff hOnce, exists_eq_left']

theorem readValue_eq_ok_iff {read : String → Except Validation.Fault α} :
    s.readValue field default read = .ok a ↔
      (s.find? field).elim (a = default) (read · = .ok a) := by
  unfold readValue
  cases s.find? field with
  | none => simp [eq_comm]
  | some text => simp [Except.mapError_eq_ok_iff]

theorem getD_eq_iff {d b : String} : t.getD d = b ↔ t.elim (b = d) (· = b) := by
  cases t with
  | none => exact eq_comm
  | some text => exact Iff.rfl

end Sources

/-! ## All settings -/

/-- The variables of settings, in any letter case. -/
def variableNames : List String :=
  "LOG_LEVEL" :: ["seed_dir", "countries_dataset", "banks_dataset", "bank_countries_dataset", "sql_dir",
    "countries_output", "banks_output", "country_identifiers_output", "full_reseed", "bank_name_suffix",
    "faker_locale", "faker_seed"].map (Sources.prefixText ++ ·)

namespace Sources

variable {s : Sources} {t : Settings}

def HasOneSpelling (s : Sources) : Prop :=
  ∀ name ∈ variableNames, s.IsSpeltOnce name

theorem hasOneSpelling_of_nodup (hEnvironment : (s.environment.map fun v => Text.lowerCase v.1).Nodup)
    (hFile : (s.file.map fun v => Text.lowerCase v.1).Nodup) : s.HasOneSpelling := fun name _ =>
  ⟨Environment.isSpeltOnce_of_nodup hEnvironment name, Environment.isSpeltOnce_of_nodup hFile name⟩

/-- A setting of the program, whose variable has the prefix. -/
def FixesField {α : Type} (s : Sources) (field : String) : α → (String → α → Prop) → α → Prop :=
  s.Fixes (prefixText ++ field)

def defaults : Settings := {}

/-- Each setting is what the sources make of it. Most are texts as they stand; a level is taken in upper
case, and a blank name of an export is none. -/
structure Merges (s : Sources) (t : Settings) : Prop where
  logLevel : s.Fixes "LOG_LEVEL" defaults.logLevel (fun text a => Text.upperCase text = a) t.logLevel
  seedDir : s.FixesField "seed_dir" defaults.seedDir Eq t.seedDir
  countriesDataset : s.FixesField "countries_dataset" defaults.countriesDataset Eq t.countriesDataset
  banksDataset : s.FixesField "banks_dataset" defaults.banksDataset Eq t.banksDataset
  bankCountriesDataset :
    s.FixesField "bank_countries_dataset" defaults.bankCountriesDataset Eq t.bankCountriesDataset
  sqlDir : s.FixesField "sql_dir" defaults.sqlDir Eq t.sqlDir
  countriesOutput : s.FixesField "countries_output" defaults.countriesOutput Eq t.countriesOutput
  banksOutput : s.FixesField "banks_output" defaults.banksOutput Eq t.banksOutput
  identifiersOutput : s.FixesField "country_identifiers_output" defaults.identifiersOutput
    (fun text a => exportName? text = a) t.identifiersOutput
  fullReseed :
    s.FixesField "full_reseed" defaults.fullReseed (fun text a => readSwitch text = .ok a) t.fullReseed
  bankNameSuffix : s.FixesField "bank_name_suffix" defaults.bankNameSuffix Eq t.bankNameSuffix
  nameLocale : s.FixesField "faker_locale" defaults.nameLocale Eq t.nameLocale
  nameSeed : s.FixesField "faker_seed" defaults.nameSeed
    (fun text a => (readWhole text).map some = .ok a) t.nameSeed

/-- The texts that stand for a switch or a number can be read. -/
structure IsValid (s : Sources) : Prop where
  fullReseed : ∀ text, s.Says (prefixText ++ "full_reseed") (some text) → ∃ b, readSwitch text = .ok b
  nameSeed : ∀ text, s.Says (prefixText ++ "faker_seed") (some text) → ∃ n, readWhole text = .ok n

section

variable {α : Type} {field : String} (hOnce : s.HasOneSpelling)
include hOnce

theorem fixesField_iff {default a : α} {Means : String → α → Prop}
    (hMem : prefixText ++ field ∈ variableNames) :
    s.FixesField field default Means a ↔ (s.find? field).elim (a = default) (Means · a) :=
  fixes_iff (hOnce _ hMem)

theorem fixesField_text_iff {default a : String} (hMem : prefixText ++ field ∈ variableNames) :
    s.FixesField field default Eq a ↔ (s.find? field).getD default = a :=
  (fixesField_iff hOnce hMem).trans getD_eq_iff.symm

theorem fixesField_read_iff {default a : α} {read : String → Except Validation.Fault α}
    (hMem : prefixText ++ field ∈ variableNames) :
    s.FixesField field default (fun text a => read text = .ok a) a ↔
      s.readValue field default read = .ok a :=
  (fixesField_iff hOnce hMem).trans readValue_eq_ok_iff.symm

theorem fixes_level_iff {level : String} :
    s.Fixes "LOG_LEVEL" defaults.logLevel (fun text a => Text.upperCase text = a) level ↔
      Text.upperCase ((s.get? "LOG_LEVEL").getD defaults.logLevel) = level := by
  rw [fixes_iff (hOnce _ (by decide))]
  cases s.get? "LOG_LEVEL" with
  | none =>
    have hDefault : Text.upperCase defaults.logLevel = defaults.logLevel := by decide +kernel
    rw [Option.elim_none, Option.getD_none, hDefault, eq_comm]
  | some text => rfl

theorem fixesField_export_iff {default name : Option String}
    (hMem : prefixText ++ field ∈ variableNames) :
    s.FixesField field default (fun text a => exportName? text = a) name ↔
      (match s.find? field with
        | some name => exportName? name
        | none => default) = name := by
  rw [fixesField_iff hOnce hMem]
  cases s.find? field with
  | none => exact eq_comm
  | some text => rfl

/-- Where no variable has a second spelling, the settings that are read are the ones that the sources give. -/
theorem ofSources_eq_ok_iff : ofSources s = .ok t ↔ s.Merges t := by
  have hText {field default a : String} := @fixesField_text_iff s field hOnce default a
  have hRead {α : Type} {field : String} {default a : α} {read : String → Except Validation.Fault α} :=
    @fixesField_read_iff s α field hOnce default a read
  constructor
  · intro h
    unfold ofSources at h
    dsimp only at h
    split at h
    · next reseed seed hReseed hSeed =>
      cases h
      exact {
        logLevel := (fixes_level_iff hOnce).mpr rfl
        seedDir := (hText (by decide)).mpr rfl
        countriesDataset := (hText (by decide)).mpr rfl
        banksDataset := (hText (by decide)).mpr rfl
        bankCountriesDataset := (hText (by decide)).mpr rfl
        sqlDir := (hText (by decide)).mpr rfl
        countriesOutput := (hText (by decide)).mpr rfl
        banksOutput := (hText (by decide)).mpr rfl
        identifiersOutput := (fixesField_export_iff hOnce (by decide)).mpr rfl
        fullReseed := (hRead (by decide)).mpr hReseed
        bankNameSuffix := (hText (by decide)).mpr rfl
        nameLocale := (hText (by decide)).mpr rfl
        nameSeed := (hRead (by decide)).mpr hSeed }
    · cases h
  · intro h
    have hReseed := (hRead (by decide)).mp h.fullReseed
    have hSeed := (hRead (by decide)).mp h.nameSeed
    unfold ofSources
    dsimp only
    split
    · next hReseed' hSeed' =>
      cases hReseed'.symm.trans hReseed
      cases hSeed'.symm.trans hSeed
      obtain ⟨logLevel, seedDir, countriesDataset, banksDataset, bankCountriesDataset, sqlDir,
        countriesOutput, banksOutput, identifiersOutput, fullReseed, bankNameSuffix, nameLocale,
        nameSeed⟩ := t
      rw [Except.ok.injEq, Settings.mk.injEq]
      exact ⟨(fixes_level_iff hOnce).mp h.logLevel, (hText (by decide)).mp h.seedDir,
        (hText (by decide)).mp h.countriesDataset, (hText (by decide)).mp h.banksDataset,
        (hText (by decide)).mp h.bankCountriesDataset, (hText (by decide)).mp h.sqlDir,
        (hText (by decide)).mp h.countriesOutput, (hText (by decide)).mp h.banksOutput,
        (fixesField_export_iff hOnce (by decide)).mp h.identifiersOutput, rfl,
        (hText (by decide)).mp h.bankNameSuffix, (hText (by decide)).mp h.nameLocale, rfl⟩
    · next hNot => exact absurd hSeed (hNot _ _ hReseed)

end

theorem isValid_of_merges (hOnce : s.HasOneSpelling) (h : s.Merges t) : s.IsValid where
  fullReseed text hSays := by
    obtain ⟨found, hFound, hMeans⟩ := h.fullReseed
    have hSpelt := hOnce (prefixText ++ "full_reseed") (by decide)
    cases ((says_iff hSpelt).mp hSays).symm.trans ((says_iff hSpelt).mp hFound)
    exact ⟨_, hMeans⟩
  nameSeed text hSays := by
    obtain ⟨found, hFound, hMeans⟩ := h.nameSeed
    have hSpelt := hOnce (prefixText ++ "faker_seed") (by decide)
    cases ((says_iff hSpelt).mp hSays).symm.trans ((says_iff hSpelt).mp hFound)
    obtain ⟨n, hRead, -⟩ := Except.map_eq_ok_iff.mp hMeans
    exact ⟨n, hRead⟩

theorem exists_readValue {α : Type} {field : String} {default : α}
    {read : String → Except Validation.Fault α}
    (h : ∀ text, s.Says (prefixText ++ field) (some text) → ∃ a, read text = .ok a) :
    ∃ a, s.readValue field default read = .ok a := by
  simp only [readValue_eq_ok_iff]
  have hSays := s.says_get? (prefixText ++ field)
  change s.Says _ (s.find? field) at hSays
  cases hFind : s.find? field with
  | none => exact ⟨default, rfl⟩
  | some text =>
    rw [hFind] at hSays
    exact h text hSays

theorem exists_ofSources (h : s.IsValid) : ∃ t, ofSources s = .ok t := by
  obtain ⟨reseed, hReseed⟩ :
      ∃ b, s.readValue "full_reseed" defaults.fullReseed readSwitch = .ok b :=
    exists_readValue h.fullReseed
  obtain ⟨seed, hSeed⟩ : ∃ n,
      s.readValue "faker_seed" defaults.nameSeed (fun text => (readWhole text).map some) = .ok n := by
    refine exists_readValue fun text hSays => ?_
    obtain ⟨n, hRead⟩ := h.nameSeed text hSays
    rw [hRead]
    exact ⟨some n, rfl⟩
  unfold ofSources
  dsimp only
  split
  · exact ⟨_, rfl⟩
  · next hNot => exact absurd hSeed (hNot reseed seed hReseed)

end Sources
end Settings
end SeedScript
