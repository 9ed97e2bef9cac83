import SeedScript.Proofs.Files.Writing
import SeedScript.Proofs.Text.Trim

/-!
# Reading back what was written

A path that a file was written to leads to that file: the directory is the one that its parent leads to,
and its own name is shorter than that of the temporary file. So what is read at the path is what was
written there last.
-/

namespace SeedScript

namespace Files

namespace Path

theorem mem_text_iff {p : Path} {c : Char} (hSlash : c ≠ '/') (hDot : c ≠ '.') :
    c ∈ p.text.toList ↔ c ∈ p.root.toList ∨ ∃ part ∈ p.parts, c ∈ part.toList := by
  have hJoin : c ∈ (Text.join "/" p.parts).toList ↔ ∃ part ∈ p.parts, c ∈ part.toList := by
    apply Text.mem_join_iff
    simpa using hSlash
  unfold text
  split
  · next hEmpty =>
    simp only [Bool.and_eq_true, String.isEmpty_iff, List.isEmpty_iff] at hEmpty
    simp [hEmpty, hDot]
  · rw [String.toList_append, List.mem_append, hJoin]

theorem parts_eq_of_name_ne {p : Path} (h : p.name ≠ "") : p.parts = p.parent.parts ++ [p.name] := by
  have hne : p.parts ≠ [] := by
    intro hNil
    apply h
    rw [name, hNil]
    rfl
  have hLast : p.name = p.parts.getLast hne := by
    rw [name, List.getLast?_eq_some_getLast hne, Option.getD_some]
  rw [hLast]
  exact (List.dropLast_append_getLast hne).symm

theorem namesEntry_iff {p : Path} : p.namesEntry = true ↔ p.name ≠ "" ∧ p.name ≠ ".." := by
  simp [namesEntry]

theorem splitList_of_not {xs : List Char} (h : '/' ∉ xs) : Text.splitList (· = '/') xs = [xs] := by
  induction xs with
  | nil => rfl
  | cons x xs ih =>
    rw [List.mem_cons, not_or] at h
    rw [Text.splitList, if_neg (by simpa using Ne.symm h.1), ih h.2]

theorem ofText_of_not_mem {s : String} (hSlash : '/' ∉ s.toList) (hne : s ≠ "") (hDot : s ≠ ".") :
    ofText s = ⟨"", [s]⟩ := by
  have hRoot : rootOf s.toList = "" := by
    unfold rootOf
    split
    · next h => exact absurd (by simp [h]) hSlash
    · next h => exact absurd (by simp [h]) hSlash
    · next h => exact absurd (by simp [h]) hSlash
    · rfl
  have hParts : Text.split '/' s = [s] := by
    rw [Text.split, splitList_of_not hSlash, List.map_singleton, String.ofList_toList]
  rw [ofText, hRoot, hParts, List.filter_cons_of_pos (by simp [hne, hDot]), List.filter_nil]

theorem parent_eq_self {p : Path} (h : p.parts = []) : p.parent = p := by
  obtain ⟨root, parts⟩ := p
  obtain rfl : parts = [] := h
  rfl

theorem parts_eq_nil_of_name_ofText {s : String} (h : (ofText s).name = "") :
    (ofText s).parts = [] := by
  by_contra hne
  have hMem : (ofText s).name ∈ (ofText s).parts := by
    rw [name, List.getLast?_eq_some_getLast hne, Option.getD_some]
    exact List.getLast_mem hne
  rw [h] at hMem
  have hPart := (List.mem_filter.mp hMem).2
  cases hPart

end Path

namespace Tree

variable {t : Tree} {p : Path} {l : Location}

theorem locate_eq_ok_iff :
    t.locate p = .ok l ↔ '\x00' ∉ p.text.toList ∧ p.text.utf8ByteSize ≤ Path.textLimit ∧
      p.parts.foldlM t.step (if p.isAbsolute then [] else t.here) = .ok l := by
  unfold locate
  split
  · next hNull =>
    have hNull : '\x00' ∈ p.text.toList := by simpa using hNull
    simp [hNull]
  · next hNull =>
    have hNull : '\x00' ∉ p.text.toList := by simpa using hNull
    split
    · next hLong => simp [Nat.not_le.mpr hLong]
    · next hLong => simp [hNull, Nat.not_lt.mp hLong]

theorem locate_of_reachParent {dir : Location} (h : t.reachParent p = .ok dir) :
    t.locate p.parent = .ok dir := by
  unfold reachParent at h
  split at h
  · cases h
  · cases h
  · next hLocate =>
    split at h
    · cases h
      exact hLocate
    · cases h

theorem utf8ByteSize_le_temporaryName (t : Tree) (name : String) (n : Nat) :
    name.utf8ByteSize ≤ (t.temporaryName name n).utf8ByteSize := by
  simp only [temporaryName, String.utf8ByteSize_append]
  omega

/-- A path with a name leads where the name leads from the directory of its parent. -/
theorem locate_eq_step {dir : Location} (hParent : t.locate p.parent = .ok dir) (hName : p.name ≠ "")
    (hNull : '\x00' ∉ p.name.toList) (hText : p.text.utf8ByteSize ≤ Path.textLimit) :
    t.locate p = t.step dir p.name := by
  obtain ⟨hNullParent, -, hWalk⟩ := locate_eq_ok_iff.mp hParent
  have hParts := Path.parts_eq_of_name_ne hName
  rw [Path.mem_text_iff (by decide) (by decide), not_or] at hNullParent
  have hNullText : '\x00' ∉ p.text.toList := by
    rw [Path.mem_text_iff (by decide) (by decide), hParts]
    rintro (hRoot | ⟨part, hPart, hMem⟩)
    · exact hNullParent.1 hRoot
    · rcases List.mem_append.mp hPart with hPart | hPart
      · exact hNullParent.2 ⟨part, hPart, hMem⟩
      · rw [List.mem_singleton.mp hPart] at hMem
        exact hNull hMem
  have hWalk : p.parent.parts.foldlM t.step (if p.isAbsolute then [] else t.here) = .ok dir := hWalk
  rw [locate, if_neg (by simpa using hNullText), if_neg (Nat.not_lt.mpr hText), hParts,
    List.foldlM_append, hWalk]
  change [p.name].foldlM t.step dir = _
  rw [List.foldlM_cons]
  cases t.step dir p.name <;> rfl

theorem name_le_of_fits {dir : Location} (h : t.Fits p dir) :
    p.name.utf8ByteSize ≤ Path.nameLimit := by
  obtain ⟨k, hk⟩ := t.unusedName_eq dir p.name t.entries.length 0
  have hName := h.name
  rw [hk] at hName
  exact Nat.le_trans (t.utf8ByteSize_le_temporaryName p.name k) hName

theorem step_of_isDirectoryAt {dir : Location} {part : String} (hDirectory : t.isDirectoryAt dir = true)
    (hSize : part.utf8ByteSize ≤ Path.nameLimit) :
    t.step dir part = .ok (if part = ".." then dir.dropLast else dir ++ [part]) := by
  rw [step, if_pos hDirectory, if_neg (Nat.not_lt.mpr hSize)]

theorem locate_of_fits {dir : Location} (hReach : t.reachParent p = .ok dir) (hFits : t.Fits p dir)
    (hNames : p.namesEntry = true) (hNull : '\x00' ∉ p.name.toList) :
    t.locate p = .ok (dir ++ [p.name]) := by
  obtain ⟨hName, hUp⟩ := Path.namesEntry_iff.mp hNames
  rw [locate_eq_step (locate_of_reachParent hReach) hName hNull hFits.text,
    step_of_isDirectoryAt (isDirectoryAt_of_reachParent hReach) (name_le_of_fits hFits), if_neg hUp]

theorem locate_of_target? (h : t.target? p = .ok l) (hNull : '\x00' ∉ p.name.toList) :
    t.locate p = .ok l := by
  obtain ⟨dir, hReach, hFits, hNames, -, rfl⟩ := target?_eq_ok_iff.mp h
  exact locate_of_fits hReach hFits hNames hNull

/-- A file can be put at a path: its parent leads to a directory, the path itself leads to none, and the
names that this takes are within the limits. -/
structure Takes (t : Tree) (p : Path) (dir : Location) : Prop where
  parent : t.locate p.parent = .ok dir
  isDirectory : t.isDirectoryAt dir = true
  apart : ∀ l, t.locate p = .ok l → t.isDirectoryAt l = false
  fits : t.Fits p dir
  null : '\x00' ∉ p.name.toList

theorem isDirectoryAt_dropLast {dir : Location} (h : t.isDirectoryAt dir = true) :
    t.isDirectoryAt dir.dropLast = true := by
  rcases List.eq_nil_or_concat' dir with rfl | ⟨up, name, rfl⟩
  · exact h
  · have hEntry : t.entries.get? (up ++ [name]) = some .directory := by
      simpa [isDirectoryAt, Entries.isDirectory] using h
    rw [List.dropLast_concat]
    exact t.closed up name .directory hEntry

theorem reachParent_of_takes {dir : Location} (h : t.Takes p dir) : t.reachParent p = .ok dir := by
  rw [reachParent, h.parent]
  exact if_pos h.isDirectory

/-- A path without a name leads to its parent, and a double dot to the directory around that. -/
theorem namesEntry_of_takes {s : String} {dir : Location} (h : t.Takes (.ofText s) dir) :
    (Path.ofText s).namesEntry = true := by
  have hName : (Path.ofText s).name ≠ "" := by
    intro hEmpty
    have hLocate := h.parent
    rw [Path.parent_eq_self (Path.parts_eq_nil_of_name_ofText hEmpty)] at hLocate
    have hNot := h.apart dir hLocate
    rw [h.isDirectory] at hNot
    cases hNot
  refine Path.namesEntry_iff.mpr ⟨hName, ?_⟩
  intro hUp
  have hLocate : t.locate (.ofText s) = .ok dir.dropLast := by
    rw [locate_eq_step h.parent hName h.null h.fits.text,
      step_of_isDirectoryAt h.isDirectory (name_le_of_fits h.fits), if_pos hUp]
  have hNot := h.apart _ hLocate
  rw [isDirectoryAt_dropLast h.isDirectory] at hNot
  cases hNot

theorem target?_of_takes {s : String} {dir : Location} (h : t.Takes (.ofText s) dir) :
    ∃ l, t.target? (.ofText s) = .ok l := by
  have hReach := reachParent_of_takes h
  have hNames := namesEntry_of_takes h
  refine ⟨_, target?_eq_ok_iff.mpr ⟨dir, hReach, h.fits, hNames, ?_, rfl⟩⟩
  intro hDirectory
  have hNot := h.apart _ (locate_of_fits hReach h.fits hNames h.null)
  rw [isDirectoryAt, Entries.isDirectory, hDirectory] at hNot
  simp at hNot

theorem takes_of_target? (h : t.target? p = .ok l) (hNull : '\x00' ∉ p.name.toList) :
    ∃ dir, t.Takes p dir := by
  obtain ⟨dir, hReach, hFits, hNames, hPlace, rfl⟩ := target?_eq_ok_iff.mp h
  refine ⟨dir, locate_of_reachParent hReach, isDirectoryAt_of_reachParent hReach, ?_, hFits, hNull⟩
  intro m hLocate
  rw [locate_of_fits hReach hFits hNames hNull] at hLocate
  cases hLocate
  simpa [isDirectoryAt, Entries.isDirectory] using hPlace

theorem read?_of_locate (h : t.locate p = .ok l) {bytes : List UInt8}
    (hFile : t.entries.get? l = some (.file bytes)) : t.read? p = some bytes := by
  rw [read?, h]
  simp only [Except.toOption, Option.bind_some, hFile]

theorem SameDirectories.locate_eq_ok {t' : Tree} (h : t.SameDirectories t')
    (hLocate : t.locate p = .ok l) : t'.locate p = .ok l := by
  have hSame := h.locate p
  rw [hLocate] at hSame
  cases hOther : t'.locate p with
  | error fault =>
    rw [hOther] at hSame
    cases hSame
  | ok m =>
    rw [hOther] at hSame
    cases hSame
    rfl

end Tree
end Files
end SeedScript
