import SeedScript.Proofs.Outputs

/-!
# Writes one after the other

Scripts and exports are written in any order and to any paths, and a write that fails stops none of those
behind it. Each write puts its text at its place as a whole, or it changes nothing. No write makes or removes
a directory, so a path leads to the same place all the time. Main statement: whatever was written before, a
write succeeds exactly if its parent is a directory and its target is none, and in the end each place holds
what the last write that went there and succeeded has put there, or what it held at the start.
-/

namespace SeedScript

open Files (Location Path Tree)

namespace Files.Tree

variable {t t' : Tree}

/-- A path leads to a directory. -/
def FindsDirectory (t : Tree) (p : Path) : Prop :=
  ∃ l, t.locate p = .ok l ∧ t.isDirectoryAt l = true

/-- The names that a write to a path uses are within the limits, that of the temporary file included. -/
def WithinLimits (t : Tree) (p : Path) : Prop :=
  ∀ dir, t.reachParent p = .ok dir → t.Fits p dir

theorem reachParent_of_isDirectoryAt {p : Path} {dir : Location} (hParent : t.locate p.parent = .ok dir)
    (hDirectory : t.isDirectoryAt dir = true) : t.reachParent p = .ok dir := by
  rw [reachParent, hParent]
  exact if_pos hDirectory

/-- There is a place for a file exactly if its parent is a directory and there is no directory in its
place. -/
theorem exists_target?_iff {s : String} (hNull : '\x00' ∉ s.toList) :
    (∃ l, t.target? (.ofText s) = .ok l) ↔ t.WithinLimits (.ofText s) ∧
      t.FindsDirectory (Path.ofText s).parent ∧ ¬ t.FindsDirectory (.ofText s) := by
  have hName : '\x00' ∉ (Path.ofText s).name.toList := fun h => hNull (Path.mem_of_mem_name_ofText h)
  constructor
  · rintro ⟨l, hTarget⟩
    obtain ⟨dir, hTakes⟩ := takes_of_target? hTarget hName
    refine ⟨fun dir' hReach => ?_, ⟨dir, hTakes.parent, hTakes.isDirectory⟩, ?_⟩
    · cases hReach.symm.trans (reachParent_of_takes hTakes)
      exact hTakes.fits
    · rintro ⟨m, hLocate, hDirectory⟩
      rw [hTakes.apart m hLocate] at hDirectory
      cases hDirectory
  · rintro ⟨hLimits, ⟨dir, hParent, hDirectory⟩, hApart⟩
    have hFits := hLimits dir (reachParent_of_isDirectoryAt hParent hDirectory)
    refine target?_of_takes ⟨hParent, hDirectory, fun m hLocate => ?_, hFits, hName⟩
    by_contra hNot
    exact hApart ⟨m, hLocate, by simpa using hNot⟩

theorem SameDirectories.symm (h : t.SameDirectories t') : t'.SameDirectories t :=
  ⟨h.here.symm, fun l => (h.isDirectoryAt l).symm⟩

theorem SameDirectories.locate_eq_ok_iff (h : t.SameDirectories t') {p : Path} {l : Location} :
    t'.locate p = .ok l ↔ t.locate p = .ok l :=
  ⟨h.symm.locate_eq_ok, h.locate_eq_ok⟩

end Files.Tree

namespace Output

variable {t : Tree} {o : Output} {outputs : List Output}

/-- The path of an output is given by a text without the character NUL. -/
def IsNamed (o : Output) : Prop :=
  ∃ s : String, '\x00' ∉ s.toList ∧ o.path = .ofText s

theorem IsNamed.not_mem_name (h : o.IsNamed) : '\x00' ∉ o.path.name.toList := by
  obtain ⟨s, hNull, hPath⟩ := h
  rw [hPath]
  exact fun hMem => hNull (Path.mem_of_mem_name_ofText hMem)

theorem write_of_target? (h : o.IsNamed) {l : Location} (hTarget : t.target? o.path = .ok l) :
    o.write t = (.ok (), t.put l (.file o.bytes)) := by
  rw [write_eq h.not_mem_name, hTarget]

theorem write_of_fault (h : o.IsNamed) {fault : WriteFault} (hTarget : t.target? o.path = .error fault) :
    o.write t = (.error (.ofProblem (o.problem fault) o.path.text), t) := by
  rw [write_eq h.not_mem_name, hTarget]

/-- A write succeeds exactly if its parent is a directory and its target is none. If it does, the target
holds the text of the output and all else is as it was; if not, everything is as it was. -/
structure IsAtomic (o : Output) (t : Tree) : Prop where
  ok_iff : (o.write t).1 = .ok () ↔
    t.WithinLimits o.path ∧ t.FindsDirectory o.path.parent ∧ ¬ t.FindsDirectory o.path
  replaced : (o.write t).1 = .ok () → ∃ l bytes, t.locate o.path = .ok l ∧ o.Puts bytes ∧
    (o.write t).2.entries.get? l = some (.file bytes) ∧
    ∀ m, m ≠ l → (o.write t).2.entries.get? m = t.entries.get? m
  refused : ∀ e, (o.write t).1 = .error e → (o.write t).2 = t ∧ ∃ f, e = .failure f ∧
    f.problem.type = "ScriptIoError" ∧ f.stage = .write ∧ f.path = some o.path.text

theorem isAtomic (h : o.IsNamed) (t : Tree) : o.IsAtomic t := by
  obtain ⟨s, hNull, hPath⟩ := id h
  have hTarget? := Tree.exists_target?_iff (t := t) hNull
  rw [← hPath] at hTarget?
  cases hTarget : t.target? o.path with
  | ok l =>
    rw [hTarget] at hTarget?
    constructor
    · rw [write_of_target? h hTarget, ← hTarget?]
      exact ⟨fun _ => ⟨l, rfl⟩, fun _ => rfl⟩
    · rw [write_of_target? h hTarget]
      intro _
      refine ⟨l, o.bytes, Tree.locate_of_target? hTarget h.not_mem_name, o.puts_bytes, ?_,
        fun m hm => ?_⟩
      · exact (Tree.get?_put_of_target? hTarget o.bytes l).trans (if_pos rfl)
      · exact (Tree.get?_put_of_target? hTarget o.bytes m).trans (if_neg hm)
    · rw [write_of_target? h hTarget]
      rintro _ ⟨⟩
  | error fault =>
    rw [hTarget] at hTarget?
    constructor
    · rw [write_of_fault h hTarget, ← hTarget?]
      constructor
      · rintro ⟨⟩
      · rintro ⟨l, ⟨⟩⟩
    · rw [write_of_fault h hTarget]
      rintro ⟨⟩
    · rw [write_of_fault h hTarget]
      rintro _ ⟨⟩
      exact ⟨rfl, _, rfl, o.type_problem fault, o.stage_problem fault, rfl⟩

/-- The tree after outputs were written in turn, those that could not be among them. -/
def after (t : Tree) (outputs : List Output) : Tree :=
  outputs.foldl (fun t o => (o.write t).2) t

/-- The outputs that are written when it is their turn. -/
def succeeded (t : Tree) : List Output → List Output
  | [] => []
  | o :: outputs =>
    match (o.write t).1 with
    | .ok () => o :: succeeded (o.write t).2 outputs
    | .error _ => succeeded (o.write t).2 outputs

theorem succeeded_cons (t : Tree) (o : Output) (outputs : List Output) :
    succeeded t (o :: outputs) = match (o.write t).1 with
      | .ok () => o :: succeeded (o.write t).2 outputs
      | .error _ => succeeded (o.write t).2 outputs := rfl

theorem succeeded_of_target? (h : o.IsNamed) {l : Location} (hTarget : t.target? o.path = .ok l)
    (outputs : List Output) :
    succeeded t (o :: outputs) = o :: succeeded (t.put l (.file o.bytes)) outputs := by
  rw [succeeded_cons, write_of_target? h hTarget]

theorem succeeded_of_fault (h : o.IsNamed) {fault : WriteFault}
    (hTarget : t.target? o.path = .error fault) (outputs : List Output) :
    succeeded t (o :: outputs) = succeeded t outputs := by
  rw [succeeded_cons, write_of_fault h hTarget]

/-- Outputs that fail leave no trace, so what is there in the end is what the others have left. -/
theorem written_after (hNamed : ∀ o ∈ outputs, o.IsNamed) (t : Tree) :
    Written t (succeeded t outputs) (after t outputs) := by
  induction outputs generalizing t with
  | nil => exact .nil t
  | cons o outputs ih =>
    obtain ⟨hName, hNamed⟩ := List.forall_mem_cons.mp hNamed
    have hAfter : after t (o :: outputs) = after (o.write t).2 outputs := rfl
    cases hTarget : t.target? o.path with
    | ok l =>
      rw [hAfter, succeeded_of_target? hName hTarget, write_of_target? hName hTarget]
      exact .cons hTarget o.puts_bytes (ih hNamed _)
    | error fault =>
      rw [hAfter, succeeded_of_fault hName hTarget, write_of_fault hName hTarget]
      exact ih hNamed t

theorem succeeded_subset (t : Tree) (outputs : List Output) : succeeded t outputs ⊆ outputs := by
  induction outputs generalizing t with
  | nil => exact List.nil_subset _
  | cons o outputs ih =>
    rw [succeeded_cons]
    split
    · exact List.cons_subset_cons o (ih _)
    · exact List.Subset.trans (ih _) (List.subset_cons_self _ _)

/-- What was written is at the place that its path leads to. -/
theorem Written.place?_eq_some_iff {t' : Tree} (h : Written t outputs t') (ho : o ∈ outputs)
    (hNull : '\x00' ∉ o.path.name.toList) {l : Location} :
    t.place? o.path = some l ↔ t.locate o.path = .ok l := by
  obtain ⟨m, hPlace, hLocate⟩ := h.locate ho hNull
  rw [h.sameDirectories.locate_eq_ok_iff] at hLocate
  rw [hPlace, hLocate, Option.some_inj, Except.ok.injEq]

/-- Whatever was written before, each write replaces its target as a whole or changes nothing, and it
succeeds exactly if it has a directory to go to and none in its place. All paths lead where they led at the
start. A place holds what was put there last by a write that succeeded, and what it held at the start if there
was none. -/
theorem write_after {t : Tree} {outputs : List Output} (hNamed : ∀ o ∈ outputs, o.IsNamed) :
    (∀ o : Output, o.IsNamed → o.IsAtomic (after t outputs)) ∧
    (∀ p l, (after t outputs).locate p = .ok l ↔ t.locate p = .ok l) ∧
    ∀ l, (∃ before o later, succeeded t outputs = before ++ o :: later ∧
        t.locate o.path = .ok l ∧ (∀ x ∈ later, t.locate x.path ≠ .ok l) ∧
        ∃ bytes, o.Puts bytes ∧ (after t outputs).entries.get? l = some (.file bytes)) ∨
      (∀ o ∈ succeeded t outputs, t.locate o.path ≠ .ok l) ∧
        (after t outputs).entries.get? l = t.entries.get? l := by
  have hWritten := written_after hNamed t
  have hPlace : ∀ o ∈ succeeded t outputs, ∀ l,
      t.place? o.path = some l ↔ t.locate o.path = .ok l := fun o ho l =>
    hWritten.place?_eq_some_iff ho (hNamed o (succeeded_subset t outputs ho)).not_mem_name
  refine ⟨fun o hName => isAtomic hName _, fun p l => hWritten.sameDirectories.locate_eq_ok_iff,
    fun l => ?_⟩
  have hLeft := hWritten.leftAt l
  generalize succeeded t outputs = done at hPlace hLeft ⊢
  generalize (after t outputs).entries.get? l = content at hLeft ⊢
  cases hLeft with
  | @last before later o bytes hLast hLater hPuts =>
    refine .inl ⟨before, o, later, rfl, (hPlace o (by simp) l).mp hLast, fun x hx hGoes => ?_, bytes,
      hPuts, rfl⟩
    exact hLater x hx ((hPlace x (by simp [hx]) l).mpr hGoes)
  | untouched hNone =>
    exact .inr ⟨fun o ho hGoes => hNone o ho ((hPlace o ho l).mpr hGoes), rfl⟩

/-- A directory and a file next to each other. -/
def twoEntries : Tree :=
  .ofEntries [] [(["d"], .directory), (["a.sql"], .file [])]

/-- Five writes: onto the directory, onto the file, to where there is no directory, onto the file by another
path, and into the directory. -/
def fiveWrites (s : StatementSet) : List Output :=
  [⟨.script, .ofText "d", s⟩, ⟨.script, .ofText "a.sql", s⟩, ⟨.script, .ofText "x/a.sql", s⟩,
    ⟨.identifiers, .ofText "d/../a.sql", s⟩, ⟨.script, .ofText "d/b.sql", s⟩]

theorem isNamed_of_mem_fiveWrites (s : StatementSet) : ∀ o ∈ fiveWrites s, o.IsNamed := by
  intro o ho
  simp only [fiveWrites, List.mem_cons, List.not_mem_nil, or_false] at ho
  rcases ho with rfl | rfl | rfl | rfl | rfl
  · exact ⟨"d", by decide, rfl⟩
  · exact ⟨"a.sql", by decide, rfl⟩
  · exact ⟨"x/a.sql", by decide, rfl⟩
  · exact ⟨"d/../a.sql", by decide, rfl⟩
  · exact ⟨"d/b.sql", by decide, rfl⟩

theorem succeeded_fiveWrites (s : StatementSet) : succeeded twoEntries (fiveWrites s) =
    [⟨.script, .ofText "a.sql", s⟩, ⟨.identifiers, .ofText "d/../a.sql", s⟩,
      ⟨.script, .ofText "d/b.sql", s⟩] := by
  obtain ⟨hDirectory, hFile, hNowhere, hAround, hInside⟩ :
      IsNamed ⟨.script, .ofText "d", s⟩ ∧ IsNamed ⟨.script, .ofText "a.sql", s⟩ ∧
        IsNamed ⟨.script, .ofText "x/a.sql", s⟩ ∧ IsNamed ⟨.identifiers, .ofText "d/../a.sql", s⟩ ∧
          IsNamed ⟨.script, .ofText "d/b.sql", s⟩ := by
    simpa [fiveWrites] using isNamed_of_mem_fiveWrites s
  have hTaken : twoEntries.target? (.ofText "d") = .error (.isDirectory "/.d.XXXXXXXX.tmp" "d") := rfl
  have hPlace : twoEntries.target? (.ofText "a.sql") = .ok ["a.sql"] := rfl
  have hMissing : ∀ bytes, (twoEntries.put ["a.sql"] (.file bytes)).target? (.ofText "x/a.sql") =
      .error (.missingParent "x") := fun _ => rfl
  have hSame : ∀ bytes, (twoEntries.put ["a.sql"] (.file bytes)).target? (.ofText "d/../a.sql") =
      .ok ["a.sql"] := fun _ => rfl
  have hNew : ∀ bytes bytes', ((twoEntries.put ["a.sql"] (.file bytes)).put ["a.sql"]
      (.file bytes')).target? (.ofText "d/b.sql") = .ok ["d", "b.sql"] := fun _ _ => rfl
  rw [fiveWrites, succeeded_of_fault hDirectory hTaken, succeeded_of_target? hFile hPlace,
    succeeded_of_fault hNowhere (hMissing _), succeeded_of_target? hAround (hSame _),
    succeeded_of_target? hInside (hNew _ _)]
  rfl

theorem eq_of_last {G : Output → Prop} {o' : Output} {before later before' later' : List Output}
    (h : before ++ o :: later = before' ++ o' :: later') (ho : G o) (hLater : ∀ x ∈ later, ¬ G x)
    (ho' : G o') (hLater' : ∀ x ∈ later', ¬ G x) : o = o' := by
  classical
  have hLast : ∀ {u : Output} {first rest : List Output}, G u → (∀ x ∈ rest, ¬ G x) →
      ((first ++ u :: rest).filter (G ·)).getLast? = some u := by
    intro u first rest hu hRest
    have hNone : rest.filter (G ·) = [] := by
      rw [List.filter_eq_nil_iff]
      exact fun x hx => by simpa using hRest x hx
    rw [List.filter_append, List.filter_cons_of_pos (by simpa using hu), hNone, List.getLast?_concat]
  exact Option.some.inj ((hLast ho hLater).symm.trans (h ▸ hLast ho' hLater'))

def twoStatements : StatementSet where
  table := "t"
  ddl := ["a\r\n c"]
  insert := some " b"
  identifiers := [.ofNat 10]

/-- The file holds the export, which has gone to it last, a script is in the directory, and the directory is
still there. -/
theorem write_after_fiveWrites :
    (after twoEntries (fiveWrites twoStatements)).entries.get? ["a.sql"] = some (.file (Text.Utf8.encode
        "\x7b\n  \"identifiers\": [\n    \"00000000-0000-0000-0000-00000000000a\"\n  ]\n\x7d\n")) ∧
      (after twoEntries (fiveWrites twoStatements)).entries.get? ["d", "b.sql"] =
        some (.file (Text.Utf8.encode "a\r\n c;\n\nb;\n")) ∧
      (after twoEntries (fiveWrites twoStatements)).entries.get? ["d"] = some .directory := by
  obtain ⟨-, -, hPlaces⟩ := write_after (t := twoEntries) (isNamed_of_mem_fiveWrites twoStatements)
  have hSucceeded := succeeded_fiveWrites twoStatements
  have hHolds : ∀ l before o later, succeeded twoEntries (fiveWrites twoStatements) =
      before ++ o :: later → twoEntries.locate o.path = .ok l →
      (∀ x ∈ later, twoEntries.locate x.path ≠ .ok l) → ∃ bytes, o.Puts bytes ∧
        (after twoEntries (fiveWrites twoStatements)).entries.get? l = some (.file bytes) := by
    intro l before o later hSplit hGoes hLater
    rcases hPlaces l with ⟨before', o', later', hSplit', hGoes', hLater', hContent⟩ | ⟨hNone, -⟩
    · cases eq_of_last (hSplit.symm.trans hSplit') hGoes hLater hGoes' hLater'
      exact hContent
    · exact absurd hGoes (hNone o (by rw [hSplit]; simp))
  refine ⟨?_, ?_, ?_⟩
  · obtain ⟨bytes, ⟨⟩, hContent⟩ := hHolds ["a.sql"] [_] _ [_] hSucceeded rfl
      (List.forall_mem_singleton.mpr nofun)
    rw [hContent]
    decide +kernel
  · obtain ⟨bytes, ⟨⟩, hContent⟩ := hHolds ["d", "b.sql"] [_, _] _ [] hSucceeded rfl
      (List.forall_mem_nil _)
    rw [hContent]
    decide +kernel
  · rcases hPlaces ["d"] with ⟨before, o, later, hSplit, hGoes, -⟩ | ⟨-, hContent⟩
    · have hApart : ∀ x ∈ succeeded twoEntries (fiveWrites twoStatements),
          twoEntries.locate x.path ≠ .ok ["d"] := by
        rw [hSucceeded]
        decide
      exact absurd hGoes (hApart o (by rw [hSplit]; simp))
    · exact hContent

end Output
end SeedScript
