import SeedScript.Log.Session
import SeedScript.Proofs.Files.Appending
import SeedScript.Proofs.Log.Levels

/-!
# Calls to logging

After logging has been set up it is set up again and again, at any level or at that of the environment, and
loggers are told of events in between. One call leaves the handlers of its own that the level asks for, and
nothing of those before; so an event is judged by the level that was set last, whichever logger it comes
from. Main statement: after any calls the console has shown the events that were not below the level of
their time, once each and in order, the journal has the same ones behind what it held, and nothing else has
been written.
-/

namespace SeedScript.Log

open Files (Location Path Tree)

/-! ## What calls ask for -/

namespace Call

def levelAfter (environment n : Int) : Call → Int
  | configure level => level.getD environment
  | emit .. => n

/-- The event that a call tells of, with its time, unless it is below a level. -/
def passing (n : Int) : Call → List (Event × String)
  | configure _ => []
  | emit logger severity name fields timestamp =>
    if n ≤ severity.level then [(logger.event severity name fields, timestamp)] else []

/-- The level that was set last, where `n` was set before all calls. -/
def lastLevel (environment n : Int) (calls : List Call) : Int :=
  calls.foldl (levelAfter environment) n

/-- The events that are not below the level that was set last before them. -/
def allPassing (environment : Int) : Int → List Call → List (Event × String)
  | _, [] => []
  | n, call :: calls => call.passing n ++ allPassing environment (call.levelAfter environment n) calls

end Call

/-- How things stand after calls: there are the handlers of the last level, one for the console and one for
the journal if there is to be one, and those that are foreign. Each event has been written once to either, as a
line behind what was there at the start. -/
structure Session.Stands (m : Machine) (r : Root) (start : Tree) (n : Int)
    (written : List (Event × String)) (s : Session) : Prop where
  level : s.root.level = n
  own : m.WantsJournal → s.root.ownHandlers = [⟨.console, n⟩, ⟨.journal m.journal, n⟩]
  ownAlone : ¬ m.WantsJournal → s.root.ownHandlers = [⟨.console, n⟩]
  foreign : s.root.handlers.filter (fun h => !h.isOwn) = r.handlers.filter fun h => !h.isOwn
  below : ∀ e : Event, e.severity.level < n → s.root.receivers e = []
  console : s.console = written.map Prod.fst
  journal : m.WantsJournal → ∃ old, start.read? m.journal = some old ∧
    s.tree.read? m.journal = some (old ++ written.flatMap fun (e, timestamp) =>
      Text.Utf8.encode ((e.record timestamp).oneLine ++ "\n"))
  elsewhere : ∀ l, (m.WantsJournal → start.locate m.journal ≠ .ok l) →
    s.tree.entries.get? l = start.entries.get? l

/-! ## Events and handlers -/

namespace Root

variable (r : Root) (n : Int) (journal : Option Path) (e : Event)

/-- An event that is not below the level goes to foreign handlers, and then once to each of the own ones. -/
theorem exists_receivers_configure : ∃ names : List String, (r.configure n journal).receivers e =
    if n ≤ e.severity.level then
      names.map .foreign ++ .console :: (journal.map Sink.journal).toList
    else [] := by
  have hForeign : ∀ handlers : List Handler, (∀ h ∈ handlers, h.isOwn = false) →
      ∃ names : List String, handlers.map Handler.sink = names.map .foreign := by
    intro handlers hAll
    induction handlers with
    | nil => exact ⟨[], rfl⟩
    | cons handler handlers ih =>
      rw [List.forall_mem_cons] at hAll
      obtain ⟨names, hNames⟩ := ih hAll.2
      obtain ⟨name, hName⟩ : ∃ name, handler.sink = .foreign name := by
        have hOwn := hAll.1
        unfold Handler.isOwn at hOwn
        split at hOwn
        · next name hSink => exact ⟨name, hSink⟩
        · cases hOwn
      exact ⟨name :: names, by rw [List.map_cons, hName, hNames, List.map_cons]⟩
  obtain ⟨names, hNames⟩ := hForeign
    ((r.handlers.filter fun h => !h.isOwn).filter fun h => h.threshold ≤ e.severity.level) (by
      intro h hMem
      simpa using (List.mem_filter.mp (List.mem_filter.mp hMem).1).2)
  refine ⟨names, ?_⟩
  have hLevel : (r.configure n journal).level = n := rfl
  unfold receivers
  rw [hLevel, ← hNames]
  split
  · next hPasses => cases journal <;> simp [configure, hPasses]
  · rfl

theorem shown_configure_singleton : (r.configure n journal).shown [e] =
    if n ≤ e.severity.level then [e] else [] := by
  obtain ⟨names, hReceivers⟩ := r.exists_receivers_configure n journal e
  unfold shown
  rw [List.flatMap_singleton, hReceivers]
  split
  · rw [List.filterMap_append, List.filterMap_eq_nil_iff.mpr (by simp), List.nil_append]
    cases journal <;> rfl
  · rfl

theorem keep_configure_singleton (timestamp : String) (tree : Tree) :
    (r.configure n journal).keep timestamp tree [e] =
      if n ≤ e.severity.level then journal.elim tree fun p => tree.append p (line e timestamp)
      else tree := by
  obtain ⟨names, hReceivers⟩ := r.exists_receivers_configure n journal e
  unfold keep
  rw [List.foldl_cons, List.foldl_nil, hReceivers]
  clear hReceivers
  split
  · induction names with
    | nil => cases journal <;> rfl
    | cons name names ih => exact ih
  · rfl

end Root

/-! ## The journal -/

namespace Machine

variable {m : Machine} {r root : Root} {start tree : Tree} {l : Location} {n : Int}

def keptJournal (m : Machine) : Option Path :=
  if m.keepsJournal then some m.journal else none

/-- A tree when something has been written into the journal, if it is kept. -/
def written (m : Machine) (tree : Tree) (bytes : List UInt8) : Tree :=
  m.keptJournal.elim tree fun p => tree.append p bytes

theorem keptJournal_of_keeps (h : m.keepsJournal = true) : m.keptJournal = some m.journal :=
  if_pos h

theorem keptJournal_of_not (h : m.keepsJournal = false) : m.keptJournal = none := by
  rw [keptJournal, h]
  rfl

theorem written_of_keeps (h : m.keepsJournal = true) (tree : Tree) (bytes : List UInt8) :
    m.written tree bytes = tree.append m.journal bytes := by
  rw [written, keptJournal_of_keeps h, Option.elim_some]

theorem written_of_not (h : m.keepsJournal = false) (tree : Tree) (bytes : List UInt8) :
    m.written tree bytes = tree := by
  rw [written, keptJournal_of_not h, Option.elim_none]

theorem configure_eq_ok_iff {level : Option Int} : m.configure r level = .ok (root, tree) ↔
    ∃ n, level.elim m.level.toLevel .ok = .ok n ∧ root = r.configure n m.keptJournal ∧
      if m.keepsJournal then m.makeJournal = .ok tree else tree = m.tree := by
  rw [configure_eq, Except.bind_eq_ok_iff, keptJournal]
  cases m.keepsJournal with
  | true =>
    simp only [if_true, Except.map_eq_ok_iff, Prod.mk.injEq]
    refine exists_congr fun n => and_congr_right fun _ => ⟨?_, ?_⟩
    · rintro ⟨made, hMake, rfl, rfl⟩
      exact ⟨rfl, hMake⟩
    · rintro ⟨rfl, hMake⟩
      exact ⟨tree, hMake, rfl, rfl⟩
  | false => simp [eq_comm]

/-- Where the level is known and the journal is there already, setting logging up again changes the level of
the root and no file. -/
theorem configure_of_made {environment : Int} (hLevel : m.level.toLevel = .ok environment)
    (hMade : m.keepsJournal = true → m.makeJournal = .ok m.tree) (r : Root) (n : Int)
    (level : Option Int) : m.configure (r.configure n m.keptJournal) level =
      .ok (r.configure (level.getD environment) m.keptJournal, m.tree) := by
  refine configure_eq_ok_iff.mpr
    ⟨level.getD environment, ?_, (Root.configure_configure _ _ _ _ _).symm, ?_⟩
  · cases level with
    | none =>
      rw [Option.elim_none, hLevel]
      rfl
    | some k => rfl
  · split
    · next hKeeps => exact hMade hKeeps
    · rfl

theorem journal_name_ne (m : Machine) : "finpay-seed-" ++ m.day ++ ".log" ≠ ".." := by
  intro h
  have hLength := congrArg (fun s => s.toList.length) h
  simp at hLength

/-- An opened journal is a file in a directory that was made for it. -/
theorem hasFile_of_makeJournal (hMake : m.makeJournal = .ok start)
    (hPlace : start.locate m.journal = .ok l) :
    ∃ dir old, start.locate m.journalDirectory = .ok dir ∧ start.isDirectoryAt dir = true ∧
      start.openEnd m.journal = .ok start ∧ start.HasFile m.journal l old := by
  obtain ⟨made, hMade, hOpen⟩ := makeJournal_eq_ok.mp hMake
  have hAgain := Tree.makeDirectory_of_makeDirectories (Tree.makeDirectories_of_openEnd hMade hOpen)
  obtain ⟨dir, hParent, -⟩ := Tree.makeDirectory_eq_ok_iff.mp hAgain
  have hDirectory := Tree.isDirectoryAt_of_locate_append hParent hPlace
  have hLast := Tree.locate_append_eq hParent hPlace m.journal_name_ne
  have hUp : start.isDirectoryAt l.dropLast = true := by
    rw [hLast, List.dropLast_concat]
    exact hDirectory
  obtain ⟨old, hFile⟩ := Tree.hasFile_of_openEnd hOpen hPlace hUp
  exact ⟨dir, old, hParent, hDirectory, Tree.openEnd_idem hOpen, hFile⟩

/-- A journal that has been opened can be opened again whatever has been written into it. -/
theorem makeJournal_append (hMake : m.makeJournal = .ok start)
    (hPlace : start.locate m.journal = .ok l) (bytes : List UInt8) :
    { m with tree := start.append m.journal bytes }.makeJournal =
      .ok (start.append m.journal bytes) := by
  obtain ⟨dir, old, hParent, hDirectory, hOpen, hFile⟩ := hasFile_of_makeJournal hMake hPlace
  obtain ⟨hName, hText, -, -⟩ := Tree.openEnd_eq_ok_iff.mp hOpen
  have hKeeps := hFile.keepsDirectories_append bytes
  have hLater := hFile.hasFile_append bytes
  rw [← hKeeps.here] at hText
  generalize start.append m.journal bytes = later at hKeeps hLater hText
  have hApart : ∀ place, later.locate m.journal = .ok place → later.isDirectoryAt place = false := by
    intro place hLocate
    cases hLater.place.symm.trans hLocate
    exact hLater.apart
  have hMade : later.makeDirectories m.journalDirectory = .ok later :=
    Tree.makeDirectories_of_makeDirectory (Tree.makeDirectory_eq_ok_iff.mpr
      ⟨dir, hKeeps.locate_eq_ok hParent, .inl ⟨hKeeps.isDirectoryAt dir hDirectory, rfl⟩⟩)
  have hOpened : later.openEnd m.journal = .ok later :=
    Tree.openEnd_eq_ok_iff.mpr ⟨hName, hText, hApart, hLater.append_nil.symm⟩
  apply makeJournal_eq_ok.mpr
  exact ⟨later, hMade, hOpened⟩

/-- Logging has been set up in an environment that stays as it is: the journal, if it asks for one, has a place,
and the level of the environment is the same whatever is written into the journal. -/
structure Ready (m : Machine) (r root : Root) (start : Tree) : Prop where
  configured : m.configure r = .ok (root, start)
  place : m.WantsJournal → ∃ l, start.locate m.journal = .ok l
  fixed : m.WantsJournal → ∀ bytes,
    { m with tree := start.append m.journal bytes }.level = m.level

namespace Ready

theorem toLevel (h : m.Ready r root start) : m.level.toLevel = .ok root.level := by
  obtain ⟨n, hLevel, rfl, -⟩ := configure_eq_ok_iff.mp h.configured
  rw [Option.elim_none] at hLevel
  rw [hLevel]
  rfl

theorem root_eq (h : m.Ready r root start) : root = r.configure root.level m.keptJournal := by
  obtain ⟨n, -, rfl, -⟩ := configure_eq_ok_iff.mp h.configured
  rfl

theorem makeJournal (h : m.Ready r root start) (hKeeps : m.keepsJournal = true) :
    m.makeJournal = .ok start := by
  obtain ⟨n, -, -, hTree⟩ := configure_eq_ok_iff.mp h.configured
  rwa [if_pos hKeeps] at hTree

theorem tree_eq (h : m.Ready r root start) (hKeeps : m.keepsJournal = false) : start = m.tree := by
  obtain ⟨n, -, -, hTree⟩ := configure_eq_ok_iff.mp h.configured
  rwa [hKeeps] at hTree

theorem hasFile (h : m.Ready r root start) (hKeeps : m.keepsJournal = true) :
    ∃ l old, start.HasFile m.journal l old := by
  obtain ⟨l, hPlace⟩ := h.place (keepsJournal_iff.mp hKeeps)
  obtain ⟨-, old, -, -, -, hFile⟩ := hasFile_of_makeJournal (h.makeJournal hKeeps) hPlace
  exact ⟨l, old, hFile⟩

theorem level_written (h : m.Ready r root start) (bytes : List UInt8) :
    { m with tree := m.written start bytes }.level.toLevel = .ok root.level := by
  rw [← h.toLevel]
  cases hKeeps : m.keepsJournal with
  | true => rw [written_of_keeps hKeeps, h.fixed (keepsJournal_iff.mp hKeeps) bytes]
  | false => rw [written_of_not hKeeps, h.tree_eq hKeeps]

theorem makeJournal_written (h : m.Ready r root start) (bytes : List UInt8)
    (hKeeps : m.keepsJournal = true) :
    { m with tree := m.written start bytes }.makeJournal = .ok (m.written start bytes) := by
  obtain ⟨l, hPlace⟩ := h.place (keepsJournal_iff.mp hKeeps)
  rw [written_of_keeps hKeeps]
  exact makeJournal_append (h.makeJournal hKeeps) hPlace bytes

theorem written_nil (h : m.Ready r root start) : m.written start [] = start := by
  cases hKeeps : m.keepsJournal with
  | true =>
    obtain ⟨l, old, hFile⟩ := h.hasFile hKeeps
    rw [written_of_keeps hKeeps, hFile.append_nil]
  | false => rw [written_of_not hKeeps]

theorem written_written (h : m.Ready r root start) (first rest : List UInt8) :
    m.written (m.written start first) rest = m.written start (first ++ rest) := by
  cases hKeeps : m.keepsJournal with
  | true =>
    obtain ⟨l, old, hFile⟩ := h.hasFile hKeeps
    rw [written_of_keeps hKeeps, written_of_keeps hKeeps, written_of_keeps hKeeps,
      hFile.append_append]
  | false => rw [written_of_not hKeeps, written_of_not hKeeps, written_of_not hKeeps]

end Ready

/-- The level hangs on the settings file alone, and so not on a journal that is another file. -/
theorem level_append {tree : Tree} {place l : Location} {old : List UInt8}
    (hSettings : tree.locate m.settingsFile = .ok place) (hFile : tree.HasFile m.journal l old)
    (hApart : place ≠ l) (bytes : List UInt8) :
    { m with tree := tree.append m.journal bytes }.level = { m with tree }.level := by
  have hLocate := (hFile.keepsDirectories_append bytes).locate_eq_ok hSettings
  have hRead : (tree.append m.journal bytes).read? m.settingsFile = tree.read? m.settingsFile := by
    rw [Tree.read?, hLocate, Tree.read?, hSettings]
    simp only [Except.toOption, Option.bind_some, hFile.get?_append_of_ne bytes hApart]
  have hText : Settings.readFile (tree.append m.journal bytes) m.settingsFile =
      Settings.readFile tree m.settingsFile := by
    simp only [Settings.readFile, hLocate, hSettings, hRead]
  have hLoad : { m with tree := tree.append m.journal bytes }.settings = { m with tree }.settings := by
    unfold settings Settings.load
    rw [hText]
  rw [level, hLoad]
  rfl

theorem Ready.of_made {place : Location} (r : Root) (hKeeps : m.keepsJournal = true)
    (hLevel : m.level = .level n) (hMake : m.makeJournal = .ok start)
    (hPlace : start.locate m.journal = .ok l) (hSettings : start.locate m.settingsFile = .ok place)
    (hApart : place ≠ l) (hLater : { m with tree := start }.level = .level n) :
    m.Ready r (r.configure n (some m.journal)) start where
  configured := by
    refine configure_eq_ok_iff.mpr ⟨n, ?_, ?_, ?_⟩
    · rw [Option.elim_none, hLevel]
      rfl
    · rw [keptJournal_of_keeps hKeeps]
    · rw [if_pos hKeeps]
      exact hMake
  place _ := ⟨l, hPlace⟩
  fixed _ bytes := by
    obtain ⟨-, old, -, -, -, hFile⟩ := hasFile_of_makeJournal hMake hPlace
    rw [level_append hSettings hFile hApart bytes, hLater, hLevel]

end Machine

/-! ## Calls one after the other -/

namespace Session

variable {m : Machine} {r root : Root} {start : Tree} {n : Int} {written : List (Event × String)}
  {s : Session}

def lines (written : List (Event × String)) : List UInt8 :=
  written.flatMap fun w => Root.line w.1 w.2

/-- What calls leave: the root as it was before logging was set up, set up at the last level, and what has
been written. -/
structure IsAfter (m : Machine) (r : Root) (start : Tree) (n : Int)
    (written : List (Event × String)) (s : Session) : Prop where
  root : s.root = r.configure n m.keptJournal
  tree : s.tree = m.written start (lines written)
  console : s.console = written.map Prod.fst

theorem lines_append (first rest : List (Event × String)) :
    lines (first ++ rest) = lines first ++ lines rest :=
  List.flatMap_append

theorem isAfter_start (h : m.Ready r root start) : IsAfter m r start root.level [] ⟨root, start, []⟩ :=
  ⟨h.root_eq, h.written_nil.symm, rfl⟩

theorem serve_configure (h : m.Ready r root start) (hAfter : s.IsAfter m r start n written)
    (level : Option Int) : ∃ s', s.serve m (.configure level) = .ok s' ∧
      s'.IsAfter m r start (level.getD root.level) written := by
  have hAgain := Machine.configure_of_made (h.level_written (lines written))
    (h.makeJournal_written (lines written)) r n level
  refine ⟨⟨r.configure (level.getD root.level) m.keptJournal, s.tree, s.console⟩, ?_,
    rfl, hAfter.tree, hAfter.console⟩
  rw [serve, hAfter.root, hAfter.tree]
  exact congrArg (Except.map fun p => Session.mk p.1 p.2 s.console) hAgain

theorem serve_emit (h : m.Ready r root start) (hAfter : s.IsAfter m r start n written)
    (logger : Logger) (severity : Severity) (name : String) (fields : Fields) (timestamp : String) :
    ∃ s', s.serve m (.emit logger severity name fields timestamp) = .ok s' ∧
      s'.IsAfter m r start n
        (written ++ Call.passing n (.emit logger severity name fields timestamp)) := by
  refine ⟨_, rfl, hAfter.root, ?_, ?_⟩
  · dsimp only
    rw [hAfter.root, Root.keep_configure_singleton, hAfter.tree, Call.passing]
    by_cases hPasses : n ≤ severity.level
    · have hLine : lines [(logger.event severity name fields, timestamp)] =
          Root.line (logger.event severity name fields) timestamp := List.flatMap_singleton _ _
      rw [if_pos hPasses, lines_append, hLine, ← h.written_written]
      exact if_pos hPasses
    · rw [if_neg hPasses, List.append_nil]
      exact if_neg hPasses
  · dsimp only
    rw [hAfter.root, Root.shown_configure_singleton, hAfter.console, Call.passing, List.map_append]
    by_cases hPasses : n ≤ severity.level
    · rw [if_pos hPasses]
      exact congrArg (_ ++ ·) (if_pos hPasses)
    · rw [if_neg hPasses]
      exact congrArg (_ ++ ·) (if_neg hPasses)

theorem serve_of_isAfter (h : m.Ready r root start) (hAfter : s.IsAfter m r start n written)
    (call : Call) : ∃ s', s.serve m call = .ok s' ∧
      s'.IsAfter m r start (call.levelAfter root.level n) (written ++ call.passing n) := by
  cases call with
  | configure level =>
    rw [Call.passing, List.append_nil]
    exact serve_configure h hAfter level
  | emit logger severity name fields timestamp => exact serve_emit h hAfter ..

theorem run_of_isAfter (h : m.Ready r root start) (calls : List Call)
    (hAfter : s.IsAfter m r start n written) : ∃ s', s.run m calls = .ok s' ∧
      s'.IsAfter m r start (Call.lastLevel root.level n calls)
        (written ++ Call.allPassing root.level n calls) := by
  induction calls generalizing n written s with
  | nil =>
    rw [Call.allPassing, List.append_nil]
    exact ⟨s, rfl, hAfter⟩
  | cons call calls ih =>
    obtain ⟨next, hServe, hNext⟩ := serve_of_isAfter h hAfter call
    obtain ⟨s', hRun, hAfter'⟩ := ih hNext
    refine ⟨s', ?_, ?_⟩
    · rw [run, List.foldlM_cons, hServe]
      exact hRun
    · rw [List.append_assoc] at hAfter'
      exact hAfter'

theorem ownHandlers_configure (r : Root) (n : Int) (journal : Option Path) :
    (r.configure n journal).ownHandlers =
      ⟨.console, n⟩ :: (journal.map fun p => (⟨.journal p, n⟩ : Handler)).toList := by
  cases journal <;> simp [Root.ownHandlers, Root.configure, Handler.isOwn]

theorem foreign_configure (r : Root) (n : Int) (journal : Option Path) :
    (r.configure n journal).handlers.filter (fun h => !h.isOwn) =
      r.handlers.filter fun h => !h.isOwn := by
  cases journal <;> simp [Root.configure, Handler.isOwn]

theorem stands_of_isAfter (h : m.Ready r root start) (hAfter : s.IsAfter m r start n written) :
    s.Stands m r start n written := by
  constructor
  case level => rw [hAfter.root]; rfl
  case own =>
    intro hWants
    rw [hAfter.root, ownHandlers_configure,
      Machine.keptJournal_of_keeps (Machine.keepsJournal_iff.mpr hWants)]
    rfl
  case ownAlone =>
    intro hNot
    rw [← Machine.keepsJournal_iff, Bool.not_eq_true] at hNot
    rw [hAfter.root, ownHandlers_configure, Machine.keptJournal_of_not hNot]
    rfl
  case foreign => rw [hAfter.root, foreign_configure]
  case below =>
    intro e hBelow
    obtain ⟨names, hReceivers⟩ := r.exists_receivers_configure n m.keptJournal e
    rw [hAfter.root, hReceivers, if_neg (Int.not_le.mpr hBelow)]
  case console => exact hAfter.console
  case journal =>
    intro hWants
    have hKeeps := Machine.keepsJournal_iff.mpr hWants
    obtain ⟨l, old, hFile⟩ := h.hasFile hKeeps
    refine ⟨old, Tree.read?_of_locate hFile.place hFile.file, ?_⟩
    rw [hAfter.tree, Machine.written_of_keeps hKeeps, hFile.read?_append]
    rfl
  case elsewhere =>
    intro l hElsewhere
    rw [hAfter.tree]
    cases hKeeps : m.keepsJournal with
    | true =>
      obtain ⟨place, old, hFile⟩ := h.hasFile hKeeps
      have hNe : l ≠ place := by
        rintro rfl
        exact hElsewhere (Machine.keepsJournal_iff.mp hKeeps) hFile.place
      rw [Machine.written_of_keeps hKeeps, hFile.get?_append_of_ne _ hNe]
    | false => rw [Machine.written_of_not hKeeps]

/-- Logging that has been set up once can be set up again and told of events in any order, and no call fails.
There is always one handler for the console and, if a journal is kept, one for that, both at the level set
last, and the foreign handlers are those of the start. Every event that is not below the level set last is
written once to the console and once to the journal, and every other event is written nowhere. -/
theorem run_stands (h : m.Ready r root start) (calls : List Call) :
    ∃ s, Session.run m ⟨root, start, []⟩ calls = .ok s ∧
      s.Stands m r start (Call.lastLevel root.level root.level calls)
        (Call.allPassing root.level root.level calls) := by
  obtain ⟨s, hRun, hAfter⟩ := run_of_isAfter h calls (isAfter_start h)
  rw [List.nil_append] at hAfter
  exact ⟨s, hRun, stands_of_isAfter h hAfter⟩

/-- The journal is made in a directory that is not there. -/
def kept : Machine :=
  .ofEnvironment [("LOG_TO_FILE", "YES"), ("LOG_FILE_DIR", "a/logs"), ("LOG_LEVEL", "warn")]

theorem ready_kept (r : Root) : ∃ start,
    kept.Ready r (r.configure 30 (some kept.journal)) start ∧ start.read? kept.journal = some [] := by
  have hChecks : (match kept.makeJournal with
      | .ok t => decide (t.locate kept.journal = .ok ["a", "logs", "finpay-seed-20240101.log"]) &&
          decide (t.locate kept.settingsFile = .ok [".env"]) &&
          decide ({ kept with tree := t }.level = .level 30) &&
          decide (t.read? kept.journal = some [])
      | .error _ => false) = true := by decide +kernel
  have hKeeps : kept.keepsJournal = true := by decide +kernel
  have hLevel : kept.level = .level 30 := by decide +kernel
  cases hMake : kept.makeJournal with
  | error e =>
    rw [hMake] at hChecks
    cases hChecks
  | ok start =>
    rw [hMake] at hChecks
    simp only [Bool.and_eq_true, decide_eq_true_iff] at hChecks
    obtain ⟨⟨⟨hPlace, hSettings⟩, hLater⟩, hEmpty⟩ := hChecks
    exact ⟨start, .of_made r hKeeps hLevel hMake hPlace hSettings (by decide) hLater, hEmpty⟩

/-- The variable is there, and it does not ask for a journal. -/
def unkept : Machine :=
  .ofEnvironment [("LOG_TO_FILE", "0")]

theorem ready_unkept (r : Root) : unkept.Ready r (r.configure 20 none) unkept.tree := by
  have hKeeps : unkept.keepsJournal = false := by decide +kernel
  have hLevel : unkept.level = .level 20 := by decide +kernel
  have hNot : ¬ unkept.WantsJournal := by rw [← Machine.keepsJournal_iff, hKeeps]; decide
  refine ⟨?_, fun h => absurd h hNot, fun h => absurd h hNot⟩
  rw [Machine.configure_eq, Option.elim_none, hLevel, hKeeps]
  rfl

/-- Calls that set a level and that of the environment, with an event behind each and one in front. -/
def someCalls : List Call :=
  [.emit ⟨"a", []⟩ .info "early" [] "00:01", .configure (some 10),
    .emit ⟨"a", []⟩ .debug "shown" [] "00:02", .configure none,
    .emit (.ofContext []) .info "late" [] "00:03",
    .emit (.ofContext [("job", .string "all")]) .error "last" [("rows", .integer 3)] "00:04"]

/-- The events that pass when the level of the environment is 30. -/
def passedKept : List (Event × String) :=
  [(⟨"shown", .debug, "a", []⟩, "00:02"), (⟨"last", .error, "finpay_seed.utils.logging",
    [("job", .string "all"), ("rows", .integer 3)]⟩, "00:04")]

theorem lines_passedKept :
    passedKept.flatMap (fun (e, timestamp) => Text.Utf8.encode ((e.record timestamp).oneLine ++ "\n")) =
      Text.Utf8.encode ("\x7b\"event\": \"shown\", \"level\": \"debug\", \"logger\": \"a\", " ++
        "\"timestamp\": \"00:02\"\x7d\n") ++
      Text.Utf8.encode ("\x7b\"job\": \"all\", \"rows\": 3, \"event\": \"last\", " ++
        "\"level\": \"error\", \"logger\": \"finpay_seed.utils.logging\", " ++
        "\"timestamp\": \"00:04\"\x7d\n") := by
  have hShown : (Event.record ⟨"shown", .debug, "a", []⟩ "00:02").oneLine ++ "\n" =
      "\x7b\"event\": \"shown\", \"level\": \"debug\", \"logger\": \"a\", " ++
        "\"timestamp\": \"00:02\"\x7d\n" := by decide +kernel
  have hLast : (Event.record ⟨"last", .error, "finpay_seed.utils.logging",
      [("job", .string "all"), ("rows", .integer 3)]⟩ "00:04").oneLine ++ "\n" =
        "\x7b\"job\": \"all\", \"rows\": 3, \"event\": \"last\", " ++
          "\"level\": \"error\", \"logger\": \"finpay_seed.utils.logging\", " ++
          "\"timestamp\": \"00:04\"\x7d\n" := by decide +kernel
  simp only [passedKept, List.flatMap_cons, List.flatMap_nil, List.append_nil, hShown, hLast]

/-- Two events pass, though one of them only at a level of its time, and foreign handlers stay. Without a
journal nothing is written into files. -/
theorem run_stands_kept :
    let r : Root := { handlers := [⟨.foreign "other", 0⟩] }
    (∃ start s, kept.Ready r (r.configure 30 (some kept.journal)) start ∧
      Session.run kept ⟨r.configure 30 (some kept.journal), start, []⟩ someCalls = .ok s ∧
      s.Stands kept r start 30 passedKept ∧
      s.console.map Event.name = ["shown", "last"] ∧
      s.tree.read? kept.journal = some (
        Text.Utf8.encode ("\x7b\"event\": \"shown\", \"level\": \"debug\", \"logger\": \"a\", " ++
          "\"timestamp\": \"00:02\"\x7d\n") ++
        Text.Utf8.encode ("\x7b\"job\": \"all\", \"rows\": 3, \"event\": \"last\", " ++
          "\"level\": \"error\", \"logger\": \"finpay_seed.utils.logging\", " ++
          "\"timestamp\": \"00:04\"\x7d\n"))) ∧
    ∃ s, Session.run unkept ⟨r.configure 20 none, unkept.tree, []⟩ someCalls = .ok s ∧
      s.root.ownHandlers = [⟨.console, 20⟩] ∧
      s.console.map Event.name = ["early", "shown", "late", "last"] ∧
      ∀ l, s.tree.entries.get? l = unkept.tree.entries.get? l := by
  intro r
  constructor
  · obtain ⟨start, hReady, hEmpty⟩ := ready_kept r
    obtain ⟨s, hRun, hStands⟩ := run_stands hReady someCalls
    have hStands : s.Stands kept r start 30 passedKept := hStands
    have hWants : kept.WantsJournal := ⟨"YES", rfl, by decide +kernel⟩
    obtain ⟨old, hOld, hJournal⟩ := hStands.journal hWants
    cases hEmpty.symm.trans hOld
    rw [List.nil_append, lines_passedKept] at hJournal
    exact ⟨start, s, hReady, hRun, hStands, by rw [hStands.console]; rfl, hJournal⟩
  · obtain ⟨s, hRun, hStands⟩ := run_stands (ready_unkept r) someCalls
    have hNot : ¬ unkept.WantsJournal := by
      rw [← Machine.keepsJournal_iff]
      decide +kernel
    refine ⟨s, hRun, hStands.ownAlone hNot, ?_, fun l => hStands.elsewhere l fun h => absurd h hNot⟩
    rw [hStands.console]
    rfl

end Session

end SeedScript.Log
