import SeedScript.Proofs.Log.Setup
import SeedScript.Proofs.Text.Case

/-!
# The level that the environment asks for

The text for the level is taken from the settings if these are valid, and otherwise from the bare
environment. In capitals it is looked up under names that are not all names of levels. Main statement:
every text but the two that name something else gives a level, which is that of its name in any letter case
or else the level of information, and with these texts alone logging cannot be set up.
-/

namespace SeedScript

theorem Settings.logLevel_of_ofSources {sources : Sources} {s : Settings}
    (h : ofSources sources = .ok s) :
    s.logLevel = Text.upperCase ((sources.get? "LOG_LEVEL").getD "INFO") := by
  unfold ofSources at h
  dsimp only at h
  split at h
  · cases h
    rfl
  · cases h

namespace Log

/-- The levels by their names. -/
def levelNames : List (String × Int) :=
  [("CRITICAL", 50), ("FATAL", 50), ("ERROR", 40), ("WARNING", 30), ("WARN", 30), ("INFO", 20),
    ("DEBUG", 10), ("NOTSET", 0)]

/-- Names under which something is found that is no level. -/
def otherNames : List String := ["BASIC_FORMAT", "_STYLES"]

/-- The level that a text asks for: that of its name in any letter case, and without a name that of
information. -/
inductive AsksFor : Option String → Int → Prop
  | nothing : AsksFor none 20
  | named {text : String} {n : Int} : (Text.upperCase text, n) ∈ levelNames → AsksFor (some text) n
  | unknown {text : String} : (∀ n, (Text.upperCase text, n) ∉ levelNames) →
      Text.upperCase text ∉ otherNames → AsksFor (some text) 20

def AsksForNoLevel (text : Option String) : Prop :=
  ∃ s, text = some s ∧ Text.upperCase s ∈ otherNames

namespace Meaning

theorem ofWord_of_mem {word : String} {n : Int} (h : (word, n) ∈ levelNames) :
    ofWord word = .level n := by
  have hAll : ∀ e ∈ levelNames, ofWord e.1 = .level e.2 := by decide
  exact hAll _ h

theorem ofWord_of_not_mem {word : String} (hLevel : ∀ n, (word, n) ∉ levelNames)
    (hOther : word ∉ otherNames) : ofWord word = .level defaultLevel := by
  unfold ofWord
  split <;> simp_all [levelNames, otherNames]

theorem ofWord_ne_level_of_mem {word : String} (h : word ∈ otherNames) (n : Int) :
    ofWord word ≠ .level n := by
  rcases List.mem_pair.mp h with rfl | rfl <;> nofun

end Meaning

theorem asksFor_or (text : Option String) : (∃ n, AsksFor text n) ∨ AsksForNoLevel text := by
  cases text with
  | none => exact .inl ⟨20, .nothing⟩
  | some s =>
    by_cases hOther : Text.upperCase s ∈ otherNames
    · exact .inr ⟨s, rfl, hOther⟩
    · by_cases hNamed : ∃ n, (Text.upperCase s, n) ∈ levelNames
      · obtain ⟨n, hn⟩ := hNamed
        exact .inl ⟨n, .named hn⟩
      · exact .inl ⟨20, .unknown (not_exists.mp hNamed) hOther⟩

theorem ofWord_of_asksFor {text : Option String} {n : Int} (h : AsksFor text n) :
    Meaning.ofWord (Text.upperCase (text.getD "INFO")) = .level n := by
  cases h with
  | nothing => exact Meaning.ofWord_of_mem (by decide +kernel)
  | named hMem => exact Meaning.ofWord_of_mem hMem
  | unknown hLevel hOther => exact Meaning.ofWord_of_not_mem hLevel hOther

namespace Machine

variable {m : Machine} {r : Root} {text : Option String}

/-- The text that the level is read from. Settings that are not valid leave the bare environment. -/
inductive LevelText (m : Machine) : Option String → Prop
  | settings {s : Settings} {file : Environment} : m.settings = .ok s →
      Settings.readFile m.tree m.settingsFile = .ok file →
      LevelText m ((⟨m.environment, file⟩ : Settings.Sources).get? "LOG_LEVEL")
  | environment {e : Error} : m.settings = .error e → LevelText m (m.environment.get? "LOG_LEVEL")

theorem settings_eq_ok_iff {s : Settings} : m.settings = .ok s ↔
    ∃ file, Settings.readFile m.tree m.settingsFile = .ok file ∧
      Settings.ofSources ⟨m.environment, file⟩ = .ok s := by
  simp only [settings, Settings.load, Except.bind_eq_ok_iff, Except.mapError_eq_ok_iff]

theorem levelWord_of_levelText (h : m.LevelText text) :
    levelWord m.environment m.settings = Text.upperCase (text.getD "INFO") := by
  cases h with
  | settings hSettings hFile =>
    obtain ⟨file, hFile', hSources⟩ := settings_eq_ok_iff.mp hSettings
    cases hFile.symm.trans hFile'
    unfold levelWord
    rw [hSettings]
    dsimp only
    rw [Settings.logLevel_of_ofSources hSources, Text.upperCase_upperCase]
  | environment hSettings =>
    unfold levelWord
    rw [hSettings]

theorem level_of_asksFor (h : m.LevelText text) {n : Int} (hAsks : AsksFor text n) :
    m.level = .level n := by
  rw [level, levelWord_of_levelText h]
  exact ofWord_of_asksFor hAsks

theorem level_ne_of_asksForNoLevel (h : m.LevelText text) (hNone : AsksForNoLevel text) (n : Int) :
    m.level ≠ .level n := by
  obtain ⟨s, rfl, hOther⟩ := hNone
  rw [level, levelWord_of_levelText h]
  exact Meaning.ofWord_ne_level_of_mem hOther n

theorem level_eq_level_iff (h : m.LevelText text) (n : Int) : m.level = .level n ↔ AsksFor text n := by
  refine ⟨fun hLevel => ?_, level_of_asksFor h⟩
  rcases asksFor_or text with ⟨k, hAsks⟩ | hNone
  · cases hLevel.symm.trans (level_of_asksFor h hAsks)
    exact hAsks
  · exact absurd hLevel (level_ne_of_asksForNoLevel h hNone n)

theorem configure_of_level {n : Int} (hLevel : m.level = .level n)
    (hJournal : m.keepsJournal = true → ∃ tree, m.makeJournal = .ok tree) :
    ∃ root tree, m.configure r = .ok (root, tree) ∧ root.level = n := by
  rw [configure_eq, Option.elim_none, hLevel, Meaning.toLevel, Except.bind]
  split
  · next hKeeps =>
    obtain ⟨tree, hMake⟩ := hJournal hKeeps
    rw [hMake]
    exact ⟨_, _, rfl, rfl⟩
  · exact ⟨_, _, rfl, rfl⟩

theorem configure_of_no_level (hLevel : ∀ n, m.level ≠ .level n) : ∃ e, m.configure r = .error e := by
  rw [configure_eq, Option.elim_none]
  cases hMeaning : m.level with
  | level n => exact absurd hMeaning (hLevel n)
  | layout text => exact ⟨_, rfl⟩
  | layouts shown => exact ⟨_, rfl⟩

/-- The level is that of the name which the text for it is in any letter case, and that of information if
there is no text or no such level. Two texts alone give no level, and with these logging cannot be set up;
else it can, at the level, unless its journal is wanted and cannot be made. -/
theorem level_asked (h : m.LevelText text) (r : Root)
    (hJournal : m.keepsJournal = true → ∃ tree, m.makeJournal = .ok tree) :
    (∀ n, m.level = .level n ↔ AsksFor text n) ∧
    ((∃ n, m.level = .level n) ↔ ¬AsksForNoLevel text) ∧
    (∀ n, AsksFor text n → ∃ root tree, m.configure r = .ok (root, tree) ∧ root.level = n) ∧
    ((∃ e, m.configure r = .error e) ↔ AsksForNoLevel text) := by
  refine ⟨level_eq_level_iff h, ⟨?_, fun hSome => ?_⟩, fun n hAsks => ?_, fun hError => ?_, fun hNone => ?_⟩
  · rintro ⟨n, hLevel⟩ hNone
    exact level_ne_of_asksForNoLevel h hNone n hLevel
  · obtain ⟨n, hAsks⟩ := (asksFor_or text).resolve_right hSome
    exact ⟨n, level_of_asksFor h hAsks⟩
  · exact configure_of_level (level_of_asksFor h hAsks) hJournal
  · refine (asksFor_or text).resolve_left ?_
    rintro ⟨n, hAsks⟩
    obtain ⟨e, hError⟩ := hError
    obtain ⟨root, tree, hOk, -⟩ := configure_of_level (r := r) (level_of_asksFor h hAsks) hJournal
    cases hError.symm.trans hOk
  · exact configure_of_no_level (level_ne_of_asksForNoLevel h hNone)

/-- A machine without files. -/
def ofEnvironment (environment : Environment) : Machine where
  environment := environment
  settingsFile := .ofText ".env"
  day := "20240101"
  timestamp := "2024-01-01T00:00:00.000000Z"
  tree := .ofEntries [] []

theorem readFile_ofEnvironment (environment : Environment) :
    Settings.readFile (ofEnvironment environment).tree (ofEnvironment environment).settingsFile =
      .ok [] := by
  have hLocate : (Files.Tree.ofEntries [] []).locate (.ofText ".env") = .ok [".env"] := rfl
  have hNone : (Files.Tree.ofEntries [] []).read? (.ofText ".env") = none := rfl
  simp only [ofEnvironment, Settings.readFile, hLocate, hNone]

theorem settings_ofEnvironment {environment : Environment} {s : Settings}
    (h : Settings.ofSources ⟨environment, []⟩ = .ok s) : (ofEnvironment environment).settings = .ok s :=
  settings_eq_ok_iff.mpr ⟨[], readFile_ofEnvironment environment, h⟩

/-- The name has letters whose capitals are in ASCII, the settings are not valid, and the journal is to be
made in a directory that is not there. -/
def dotless : Machine :=
  ofEnvironment [("LOG_LEVEL", "crıtıcal"), ("FINPAY_SEED_FULL_RESEED", "maybe"), ("LOG_TO_FILE", "Yes"),
    ("LOG_FILE_DIR", "a/b")]

theorem level_asked_dotless : dotless.LevelText (some "crıtıcal") ∧ AsksFor (some "crıtıcal") 50 ∧
    ∃ root tree, dotless.configure {} = .ok (root, tree) ∧ root.level = 50 := by
  have hText : dotless.LevelText (some "crıtıcal") := by
    have hInvalid : dotless.settings.isOk = false := by decide +kernel
    cases hSettings : dotless.settings with
    | ok s => cases hInvalid.symm.trans (congrArg Except.isOk hSettings)
    | error e => exact .environment hSettings
  have hJournal : dotless.keepsJournal = true → ∃ tree, dotless.makeJournal = .ok tree := by
    have hMade : dotless.makeJournal.isOk = true := by decide +kernel
    intro _
    cases hMake : dotless.makeJournal with
    | ok tree => exact ⟨tree, rfl⟩
    | error e => cases hMade.symm.trans (congrArg Except.isOk hMake)
  have hAsks : AsksFor (some "crıtıcal") 50 := .named (by decide +kernel)
  exact ⟨hText, hAsks, (level_asked hText {} hJournal).2.2.1 50 hAsks⟩

def layoutNamed : Machine :=
  ofEnvironment [("LOG_LEVEL", "BASIC_FORMAT")]

/-- With the name of a layout for a level logging cannot be set up, though no journal is wanted. -/
theorem level_asked_layout : layoutNamed.LevelText (some "BASIC_FORMAT") ∧
    layoutNamed.keepsJournal = false ∧ (∀ n, layoutNamed.level ≠ .level n) ∧
      ∃ e, layoutNamed.configure {} = .error e ∧ e.type = "ValueError" := by
  have hValid : Settings.ofSources ⟨[("LOG_LEVEL", "BASIC_FORMAT")], []⟩ =
      .ok { logLevel := "BASIC_FORMAT" } := by decide +kernel
  have hSettings : layoutNamed.settings = .ok { logLevel := "BASIC_FORMAT" } :=
    settings_ofEnvironment hValid
  have hWord : Meaning.ofWord (Text.upperCase "BASIC_FORMAT") = .layout Meaning.basicLayout := by
    decide +kernel
  have hLevel : layoutNamed.level = .layout Meaning.basicLayout := by
    rw [level, hSettings]
    exact hWord
  refine ⟨.settings hSettings (readFile_ofEnvironment _), by decide +kernel, ?_, ?_⟩
  · rw [hLevel]
    nofun
  · rw [configure_eq, Option.elim_none, hLevel]
    exact ⟨_, rfl, rfl⟩

end Machine
end Log
end SeedScript
