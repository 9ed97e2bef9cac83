import SeedScript.Proofs.Files.Reading

/-!
# Making directories and opening files

Making directories and opening a file keep every directory that is there, so a path leads afterwards to
where it led before. Both find what they have made, and change nothing when they are done again.
-/

namespace SeedScript.Files

namespace Entries

theorem set_of_get? {es : Entries} {l : Location} {e : Entry} (h : es.get? l = some e) :
    es.set l e = es := by
  induction es with
  | nil => cases h
  | cons x es ih =>
    rw [get?_cons] at h
    unfold set
    split at h
    · next hPlace =>
      cases h
      exact if_pos hPlace
    · next hPlace => rw [if_neg hPlace, ih h]

end Entries

namespace Tree

variable {t t' : Tree} {p : Path} {l : Location}

/-- Whether every directory of a tree is one of another. -/
structure KeepsDirectories (t t' : Tree) : Prop where
  here : t'.here = t.here
  isDirectoryAt : ∀ l, t.isDirectoryAt l = true → t'.isDirectoryAt l = true

namespace KeepsDirectories

theorem refl (t : Tree) : t.KeepsDirectories t := ⟨rfl, fun _ h => h⟩

theorem step_eq_ok (h : t.KeepsDirectories t') {part : String} {m : Location}
    (hStep : t.step l part = .ok m) : t'.step l part = .ok m := by
  unfold step at hStep
  split at hStep
  · next hDirectory =>
    split at hStep
    · cases hStep
    · next hSize =>
      rw [step_of_isDirectoryAt (h.isDirectoryAt l hDirectory) (Nat.not_lt.mp hSize)]
      exact hStep
  · split at hStep <;> cases hStep

theorem walk_eq_ok (h : t.KeepsDirectories t') {parts : List String} {m : Location}
    (hWalk : parts.foldlM t.step l = .ok m) : parts.foldlM t'.step l = .ok m := by
  induction parts generalizing l with
  | nil => exact hWalk
  | cons part parts ih =>
    rw [List.foldlM_cons] at hWalk ⊢
    cases hStep : t.step l part with
    | error fault =>
      rw [hStep] at hWalk
      cases hWalk
    | ok next =>
      rw [hStep] at hWalk
      rw [h.step_eq_ok hStep]
      exact ih hWalk

theorem locate_eq_ok (h : t.KeepsDirectories t') (hLocate : t.locate p = .ok l) :
    t'.locate p = .ok l := by
  obtain ⟨hNull, hSize, hWalk⟩ := locate_eq_ok_iff.mp hLocate
  rw [← h.here] at hWalk
  exact locate_eq_ok_iff.mpr ⟨hNull, hSize, h.walk_eq_ok hWalk⟩

end KeepsDirectories

theorem put_eq_or (t : Tree) (l : Location) (e : Entry) :
    t.put l e = t ∨ (t.put l e).entries = t.entries.set l e ∧ t.entries.get? l ≠ some .directory := by
  unfold put
  split
  · next hPlace => exact .inr ⟨rfl, hPlace.2⟩
  · exact .inl rfl

theorem here_put (t : Tree) (l : Location) (e : Entry) : (t.put l e).here = t.here := by
  unfold put
  split <;> rfl

theorem keepsDirectories_put (t : Tree) (l : Location) (e : Entry) :
    t.KeepsDirectories (t.put l e) := by
  rcases t.put_eq_or l e with hSame | ⟨hEntries, hPlace⟩
  · rw [hSame]
    exact .refl t
  refine ⟨t.here_put l e, ?_⟩
  intro m hDirectory
  rw [isDirectoryAt, hEntries]
  by_cases hm : m = l
  · subst hm
    have hRoot : m.isEmpty = true := by
      simpa [isDirectoryAt, Entries.isDirectory, hPlace] using hDirectory
    simp [Entries.isDirectory, hRoot]
  · rw [Entries.isDirectory_set_of_ne _ _ hm]
    exact hDirectory

theorem put_of_get? {e : Entry} (h : t.entries.get? l = some e) : t.put l e = t := by
  unfold put
  split
  · cases t
    simp only [Entries.set_of_get? h]
  · rfl

/-! ## Directories -/

theorem makeDirectory_eq_ok_iff : t.makeDirectory p = .ok t' ↔
    ∃ l, t.locate p = .ok l ∧ (t.isDirectoryAt l = true ∧ t' = t ∨
      t.isDirectoryAt l = false ∧ t.entries.get? l = none ∧ t' = t.put l .directory) := by
  unfold makeDirectory
  cases hLocate : t.locate p with
  | error fault =>
    cases fault <;> simp
  | ok l =>
    simp only [Except.ok.injEq, exists_eq_left']
    split
    · next hDirectory => simp [hDirectory, eq_comm]
    · next hDirectory =>
      split
      · next hSome =>
        have hNone : t.entries.get? l ≠ none := Option.isSome_iff_ne_none.mp hSome
        simp [hDirectory, hNone]
      · next hSome =>
        have hNone : t.entries.get? l = none := by simpa using hSome
        simp [hDirectory, hNone, eq_comm]

theorem keepsDirectories_of_makeDirectory (h : t.makeDirectory p = .ok t') :
    t.KeepsDirectories t' := by
  obtain ⟨l, -, ⟨-, rfl⟩ | ⟨-, -, rfl⟩⟩ := makeDirectory_eq_ok_iff.mp h
  · exact .refl _
  · exact t.keepsDirectories_put l .directory

theorem makeDirectory_idem (h : t.makeDirectory p = .ok t') : t'.makeDirectory p = .ok t' := by
  have hKeeps := keepsDirectories_of_makeDirectory h
  obtain ⟨l, hLocate, ⟨-, rfl⟩ | ⟨-, hNone, rfl⟩⟩ := makeDirectory_eq_ok_iff.mp h
  · exact h
  · rcases t.put_eq_or l .directory with hSame | ⟨hEntries, -⟩
    · rw [hSame] at h ⊢
      exact h
    · refine makeDirectory_eq_ok_iff.mpr ⟨l, hKeeps.locate_eq_ok hLocate, .inl ⟨?_, rfl⟩⟩
      rw [isDirectoryAt, hEntries, Entries.isDirectory, Entries.get?_set_self]
      simp

theorem makeDirectory_of_makeDirectoriesUp {root : String} {parts : List String}
    (h : t.makeDirectoriesUp root parts = .ok t') :
    ∃ t'' : Tree, t''.makeDirectory ⟨root, parts.reverse⟩ = .ok t' := by
  cases parts with
  | nil => exact ⟨t, h⟩
  | cons part up =>
    unfold makeDirectoriesUp at h
    dsimp only at h
    split at h
    · cases hUp : t.makeDirectoriesUp root up with
      | error fault =>
        rw [hUp] at h
        cases h
      | ok t'' =>
        rw [hUp] at h
        exact ⟨t'', h⟩
    · exact ⟨t, h⟩

theorem makeDirectoriesUp_of_makeDirectory {root : String} {parts : List String}
    (h : t.makeDirectory ⟨root, parts.reverse⟩ = .ok t') : t.makeDirectoriesUp root parts = .ok t' := by
  cases parts with
  | nil => exact h
  | cons part up =>
    obtain ⟨l, hLocate, -⟩ := makeDirectory_eq_ok_iff.mp h
    unfold makeDirectoriesUp
    simp only [hLocate]
    exact h

theorem makeDirectories_of_makeDirectory (h : t.makeDirectory p = .ok t') :
    t.makeDirectories p = .ok t' := by
  refine makeDirectoriesUp_of_makeDirectory ?_
  rw [List.reverse_reverse]
  exact h

theorem makeDirectory_of_makeDirectories (h : t.makeDirectories p = .ok t') :
    t'.makeDirectory p = .ok t' := by
  obtain ⟨t'', hLast⟩ := makeDirectory_of_makeDirectoriesUp h
  rw [List.reverse_reverse] at hLast
  exact makeDirectory_idem hLast

/-! ## Files to write at the end of -/

theorem openEnd_eq_ok_iff :
    t.openEnd p = .ok t' ↔ p.name.utf8ByteSize ≤ Path.nameLimit ∧
      (p.absolute t.here).text.utf8ByteSize ≤ Path.textLimit ∧
      (∀ l, t.locate p = .ok l → t.isDirectoryAt l = false) ∧ t' = t.append p [] := by
  have hNot : (t.locate p).toOption.any t.isDirectoryAt = false ↔
      ∀ l, t.locate p = .ok l → t.isDirectoryAt l = false := by
    cases t.locate p <;> simp [Except.toOption]
  unfold openEnd
  dsimp only
  rw [← hNot]
  split
  · next hLong =>
    rw [Bool.or_eq_true, decide_eq_true_iff, decide_eq_true_iff] at hLong
    constructor
    · intro h
      cases h
    · rintro ⟨hName, hText, -⟩
      omega
  · next hFits =>
    rw [Bool.or_eq_true, decide_eq_true_iff, decide_eq_true_iff, not_or, Nat.not_lt, Nat.not_lt] at hFits
    split
    · next hDirectory => simp [hDirectory]
    · next hDirectory => simp [hFits, hDirectory, eq_comm]

/-- Writing nothing at the end of what is no directory makes an empty file where there is nothing. -/
theorem append_nil_eq (hPlace : ∀ l, t.locate p = .ok l → t.isDirectoryAt l = false) :
    t.append p [] = t ∨ ∃ l, t.locate p = .ok l ∧ t.append p [] = t.put l (.file []) ∧
      (t.append p []).entries = t.entries.set l (.file []) := by
  cases hLocate : t.locate p with
  | error fault =>
    left
    rw [append, hLocate]
  | ok l =>
    cases hEntry : t.entries.get? l with
    | none =>
      have hPut : t.append p [] = t.put l (.file []) := by simp only [append, hLocate, hEntry]
      rw [hPut]
      rcases t.put_eq_or l (.file []) with hSame | ⟨hEntries, -⟩
      · exact .inl hSame
      · exact .inr ⟨l, rfl, rfl, hEntries⟩
    | some e =>
      cases e with
      | file bytes =>
        left
        simp only [append, hLocate, hEntry, List.append_nil]
        exact put_of_get? hEntry
      | directory =>
        have hNot := hPlace l hLocate
        simp [isDirectoryAt, Entries.isDirectory, hEntry] at hNot

theorem keepsDirectories_of_openEnd (h : t.openEnd p = .ok t') : t.KeepsDirectories t' := by
  obtain ⟨-, -, hPlace, rfl⟩ := openEnd_eq_ok_iff.mp h
  rcases append_nil_eq hPlace with hSame | ⟨l, -, hPut, -⟩
  · rw [hSame]
    exact .refl t
  · rw [hPut]
    exact t.keepsDirectories_put l (.file [])

theorem openEnd_idem (h : t.openEnd p = .ok t') : t'.openEnd p = .ok t' := by
  have hKeeps := keepsDirectories_of_openEnd h
  obtain ⟨hName, hText, hPlace, rfl⟩ := openEnd_eq_ok_iff.mp h
  rcases append_nil_eq hPlace with hSame | ⟨l, hLocate, -, hEntries⟩
  · rw [hSame] at h ⊢
    exact h
  have hThere := hKeeps.locate_eq_ok hLocate
  have hEntry : (t.append p []).entries.get? l = some (.file []) := by
    rw [hEntries, Entries.get?_set_self]
  have hRoot : l.isEmpty = false := by
    have hNot := hPlace l hLocate
    simp only [isDirectoryAt, Entries.isDirectory, Bool.or_eq_false_iff] at hNot
    exact hNot.1
  have hPlace' : ∀ m, (t.append p []).locate p = .ok m → (t.append p []).isDirectoryAt m = false := by
    intro m hm
    cases hThere.symm.trans hm
    simp [isDirectoryAt, Entries.isDirectory, hEntry, hRoot]
  rw [← hKeeps.here] at hText
  refine openEnd_eq_ok_iff.mpr ⟨hName, hText, hPlace', ?_⟩
  rcases append_nil_eq hPlace' with hSame | ⟨m, hm, hPut, -⟩
  · exact hSame.symm
  · cases hThere.symm.trans hm
    rw [hPut, put_of_get? hEntry]

theorem isDirectoryAt_of_locate_append {name : String} {m : Location} (hParent : t.locate p = .ok l)
    (h : t.locate (p ++ ({ parts := [name] } : Path)) = .ok m) : t.isDirectoryAt l = true := by
  obtain ⟨-, -, hWalk⟩ := locate_eq_ok_iff.mp hParent
  obtain ⟨-, -, hLast⟩ := locate_eq_ok_iff.mp h
  change (p.parts ++ [name]).foldlM t.step (if p.isAbsolute then [] else t.here) = .ok m at hLast
  rw [List.foldlM_append, hWalk] at hLast
  change [name].foldlM t.step l = .ok m at hLast
  by_contra hNot
  rw [List.foldlM_cons, step, if_neg hNot] at hLast
  split at hLast <;> cases hLast

/-- A file that has been opened in directories that were made for it is found again. -/
theorem makeDirectories_of_openEnd {name : String} {t'' : Tree} (hMade : t.makeDirectories p = .ok t')
    (hOpen : t'.openEnd (p ++ ({ parts := [name] } : Path)) = .ok t'') :
    t''.makeDirectories p = .ok t'' := by
  have hAgain := makeDirectory_of_makeDirectories hMade
  have hKeeps := keepsDirectories_of_openEnd hOpen
  obtain ⟨-, -, hPlace, rfl⟩ := openEnd_eq_ok_iff.mp hOpen
  apply makeDirectories_of_makeDirectory
  -- the file was there, or it stands in the last directory now
  rcases append_nil_eq hPlace with hSame | ⟨m, hLocate, -, -⟩
  · rw [hSame]
    exact hAgain
  · obtain ⟨l, hParent, -⟩ := makeDirectory_eq_ok_iff.mp hAgain
    have hDirectory := isDirectoryAt_of_locate_append hParent hLocate
    exact makeDirectory_eq_ok_iff.mpr
      ⟨l, hKeeps.locate_eq_ok hParent, .inl ⟨hKeeps.isDirectoryAt l hDirectory, rfl⟩⟩

end Tree
end SeedScript.Files
