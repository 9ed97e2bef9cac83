import SeedScript.Cli.Run
import SeedScript.Proofs.Files.Directories
import SeedScript.Proofs.Stages

/-!
# Setting up logging

Logging is set up before the arguments are read, and a second time in a verbose run. The second time
changes nothing but the level: the handlers of the first time are replaced, and the journal is there.
-/

namespace SeedScript

open Files (Path Tree)

namespace Log

namespace Root

variable (r : Root) (n : Int) (journal : Option Path)

theorem configure_configure (n' : Int) (journal' : Option Path) :
    (r.configure n' journal').configure n journal = r.configure n journal := by
  cases journal' <;> simp [configure, Handler.isOwn]

theorem shown_append (first rest : List Event) :
    r.shown (first ++ rest) = r.shown first ++ r.shown rest :=
  List.flatMap_append

/-- The console shows every event that is not below the level, once. -/
theorem shown_configure (events : List Event) :
    (({} : Root).configure n journal).shown events =
      events.filter fun e => n ≤ e.severity.level := by
  induction events with
  | nil => rfl
  | cons e events ih =>
    have hHead : (({} : Root).configure n journal).shown [e] =
        if n ≤ e.severity.level then [e] else [] := by
      cases journal <;> by_cases h : n ≤ e.severity.level <;>
        simp [shown, receivers, configure, h]
    rw [← List.singleton_append, shown_append, hHead, ih, List.singleton_append, List.filter_cons]
    by_cases h : n ≤ e.severity.level <;> simp [h]

end Root

namespace Machine

variable {m : Machine} {r root : Root} {tree : Tree} {e : Error}

theorem configure_eq (m : Machine) (r : Root) (level : Option Int) :
    m.configure r level = (level.elim m.level.toLevel .ok).bind fun n =>
      if m.keepsJournal = true then
        m.makeJournal.map fun tree => (r.configure n (some m.journal), tree)
      else .ok (r.configure n none, m.tree) := by
  unfold configure
  cases level with
  | none =>
    cases m.level.toLevel with
    | error e => rfl
    | ok n => cases m.keepsJournal <;> cases m.makeJournal <;> rfl
  | some n => cases m.keepsJournal <;> cases m.makeJournal <;> rfl

theorem configure_error (h : m.configure r = .error e) :
    m.level.toLevel = .error e ∨ m.keepsJournal = true ∧ m.makeJournal = .error e := by
  rw [configure_eq, Except.bind_eq_error_iff, Option.elim_none] at h
  rcases h with hLevel | ⟨n, -, h⟩
  · exact .inl hLevel
  · split at h
    · next hKeeps => exact .inr ⟨hKeeps, Except.map_eq_error_iff.mp h⟩
    · cases h

/-! ## The journal -/

/-- The environment asks for a journal. -/
def WantsJournal (m : Machine) : Prop :=
  ∃ value, m.environment.get? "LOG_TO_FILE" = some value ∧
    Text.lowerCase value ∈ ["1", "true", "yes"]

theorem keepsJournal_iff : m.keepsJournal = true ↔ m.WantsJournal := by
  have hUnset : Text.lowerCase "" ∉ ["1", "true", "yes"] := by decide +kernel
  rw [keepsJournal, WantsJournal, List.contains_iff_mem]
  cases m.environment.get? "LOG_TO_FILE" with
  | none => exact iff_of_false hUnset nofun
  | some value => simp

theorem makeJournal_eq (m : Machine) : m.makeJournal =
    ((m.tree.makeDirectories m.journalDirectory).mapError Error.logDirectory).bind fun made =>
      (made.openEnd m.journal).mapError Error.logFile :=
  rfl

theorem makeJournal_eq_ok : m.makeJournal = .ok tree ↔
    ∃ made, m.tree.makeDirectories m.journalDirectory = .ok made ∧
      made.openEnd m.journal = .ok tree := by
  simp only [makeJournal_eq, Except.bind_eq_ok_iff, Except.mapError_eq_ok_iff]

theorem makeJournal_error (h : m.makeJournal = .error e) :
    (∃ fault, m.tree.makeDirectories m.journalDirectory = .error fault ∧ e = .logDirectory fault) ∨
      ∃ made fault, m.tree.makeDirectories m.journalDirectory = .ok made ∧
        made.openEnd m.journal = .error fault ∧ e = .logFile fault := by
  rw [makeJournal_eq, Except.bind_eq_error_iff] at h
  rcases h with hMake | ⟨made, hMade, hOpen⟩
  · obtain ⟨fault, hFault, rfl⟩ := Except.mapError_eq_error_iff.mp hMake
    exact .inl ⟨fault, hFault, rfl⟩
  · obtain ⟨fault, hFault, rfl⟩ := Except.mapError_eq_error_iff.mp hOpen
    exact .inr ⟨made, fault, Except.mapError_eq_ok_iff.mp hMade, hFault, rfl⟩

theorem makeJournal_idem (h : m.makeJournal = .ok tree) : { m with tree }.makeJournal = .ok tree := by
  obtain ⟨made, hMade, hOpen⟩ := makeJournal_eq_ok.mp h
  apply makeJournal_eq_ok.mpr
  exact ⟨tree, Files.Tree.makeDirectories_of_openEnd hMade hOpen, Files.Tree.openEnd_idem hOpen⟩

/-! ## Setting up twice -/

/-- Where logging could be set up, it can be set up again at any level. Nothing changes but the level. -/
theorem configure_again (h : m.configure r = .ok (root, tree)) (n : Int) :
    ∃ level journal, root = r.configure level journal ∧
      { m with tree }.configure root (some n) = .ok (r.configure n journal, tree) := by
  rw [configure_eq, Except.bind_eq_ok_iff] at h
  obtain ⟨level, -, h⟩ := h
  split at h
  · next hKeeps =>
    obtain ⟨made, hMake, hBoth⟩ := Except.map_eq_ok_iff.mp h
    cases hBoth
    refine ⟨level, some m.journal, rfl, ?_⟩
    have hKeeps' : { m with tree }.keepsJournal = true := hKeeps
    rw [configure_eq, Option.elim_some, Except.bind, if_pos hKeeps', makeJournal_idem hMake]
    have hRoot := Root.configure_configure r n (some m.journal) level (some m.journal)
    exact congrArg (fun root => Except.ok (root, tree)) hRoot
  · next hKeeps =>
    cases h
    refine ⟨level, none, rfl, ?_⟩
    rw [configure_eq, Option.elim_some, Except.bind, if_neg hKeeps, Root.configure_configure]

/-- The root that all events of a run go through, and the tree that goes with it. A verbose run sets
logging up a second time. -/
def setUp (m : Machine) (verbose : Bool) : Except Error (Root × Tree) :=
  match m.configure {} with
  | .error e => .error e
  | .ok (root, tree) =>
    if verbose then { m with tree }.configure root (some Cli.verboseLevel) else .ok (root, tree)

theorem setUp_of_configure (h : m.configure {} = .ok (root, tree)) :
    m.setUp false = .ok (root, tree) := by
  unfold setUp
  rw [h]
  rfl

theorem setUp_error {verbose : Bool} (h : m.setUp verbose = .error e) :
    m.level.toLevel = .error e ∨ m.keepsJournal = true ∧ m.makeJournal = .error e := by
  unfold setUp at h
  cases hFirst : m.configure {} with
  | error e' =>
    rw [hFirst] at h
    cases h
    exact configure_error hFirst
  | ok r =>
    -- the second time cannot fail
    obtain ⟨level, journal, -, hAgain⟩ := configure_again hFirst Cli.verboseLevel
    rw [hFirst] at h
    dsimp only at h
    split at h
    · cases hAgain.symm.trans h
    · cases h

theorem setUp_ok {verbose : Bool} (h : m.setUp verbose = .ok (root, tree)) :
    ∃ journal, root = ({} : Root).configure root.level journal := by
  unfold setUp at h
  cases hFirst : m.configure {} with
  | error e' =>
    rw [hFirst] at h
    cases h
  | ok r =>
    obtain ⟨level, journal, hRoot, hAgain⟩ := configure_again hFirst Cli.verboseLevel
    rw [hFirst] at h
    dsimp only at h
    split at h
    · cases hAgain.symm.trans h
      exact ⟨journal, rfl⟩
    · cases h
      exact ⟨journal, by rw [hRoot]; rfl⟩

/-! ## Errors before the job -/

theorem mem_of_toLevel {word : String} (h : (Meaning.ofWord word).toLevel = .error e) :
    word ∈ ["BASIC_FORMAT", "_STYLES"] := by
  unfold Meaning.ofWord at h
  split at h
  case h_9 => exact List.mem_cons_self
  case h_10 => exact List.mem_cons_of_mem _ List.mem_cons_self
  all_goals cases h

theorem readFile_error {p : Path} (h : Settings.readFile tree p = .error e) :
    (tree.locate p = .error .nameTooLong ∧ e = .nameTooLong p.text) ∨
      ∃ bytes fault, tree.read? p = some bytes ∧ Text.Utf8.decode bytes = .error fault ∧
        e = .settingsUndecodable fault := by
  unfold Settings.readFile at h
  split at h
  · next hLocate =>
    cases h
    exact .inl ⟨hLocate, rfl⟩
  · cases h
  · next bytes hRead _ =>
    split at h
    · cases h
    · next fault hDecode =>
      cases h
      exact .inr ⟨bytes, fault, hRead, hDecode, rfl⟩

theorem settings_error (h : m.settings = .error e) :
    e.IsOf .config ∨
      (m.tree.locate m.settingsFile = .error .nameTooLong ∧
        e = .nameTooLong m.settingsFile.text) ∨
      ∃ bytes fault, m.tree.read? m.settingsFile = some bytes ∧
        Text.Utf8.decode bytes = .error fault ∧ e = .settingsUndecodable fault := by
  have hLoad : m.settings = (Settings.readFile m.tree m.settingsFile).bind fun file =>
      (Settings.ofSources ⟨m.environment, file⟩).mapError fun problems =>
        .ofProblem (.settings problems) := rfl
  rw [hLoad, Except.bind_eq_error_iff] at h
  rcases h with hFile | ⟨file, -, hSources⟩
  · exact .inr (readFile_error hFile)
  · obtain ⟨problems, -, rfl⟩ := Except.mapError_eq_error_iff.mp hSources
    exact .inl (Error.isOf_ofProblem _ _ _)

end Machine
end Log
end SeedScript
