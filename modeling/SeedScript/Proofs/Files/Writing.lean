import SeedScript.Files.Tree
import Mathlib.Data.List.Nodup

/-!
# What a write does to a tree

A write puts one file at one place, or changes nothing. The name of its temporary file is not in use,
because there are more candidates than entries, and it is not the name of the file itself. Where a
path leads depends on the directories of a tree alone, and no write makes or removes one.
-/

namespace SeedScript.Files

namespace Entries

theorem isSome_get?_iff {es : Entries} {l : Location} :
    (es.get? l).isSome = true ↔ l ∈ es.map Prod.fst := by
  induction es with
  | nil => simp
  | cons x rest ih =>
    rw [get?_cons]
    by_cases h : l = x.1
    · simp [h]
    · simp [h, ih]

theorem isDirectory_set_file {es : Entries} {l : Location} (h : es.get? l ≠ some .directory)
    (bytes : List UInt8) (m : Location) :
    (es.set l (.file bytes)).isDirectory m = es.isDirectory m := by
  by_cases hm : m = l
  · subst hm
    simp [isDirectory, get?_set_self, h]
  · exact isDirectory_set_of_ne es _ hm

end Entries

namespace Tree

theorem temporaryName_injective (t : Tree) (name : String) :
    Function.Injective (t.temporaryName name) := by
  intro m n h
  have hLength := congrArg (fun s => s.toList.length) h
  simpa [temporaryName] using hLength

theorem temporaryName_ne (t : Tree) (name : String) (n : Nat) : t.temporaryName name n ≠ name := by
  intro h
  have hLength := congrArg (fun s => s.toList.length) h
  simp [temporaryName] at hLength
  omega

theorem unusedName_eq (t : Tree) (dir : Location) (name : String) (tries n : Nat) :
    ∃ k, t.unusedName dir name tries n = t.temporaryName name k := by
  induction tries generalizing n with
  | zero => exact ⟨n, rfl⟩
  | succ tries ih =>
    rw [unusedName]
    split
    · exact ih (n + 1)
    · exact ⟨n, rfl⟩

/-- If the name that is settled on is in use, so are all that were tried. -/
theorem isSome_of_unusedName {t : Tree} {dir : Location} {name : String} {tries n : Nat}
    (h : (t.entries.get? (dir ++ [t.unusedName dir name tries n])).isSome = true) :
    ∀ k ≤ tries, (t.entries.get? (dir ++ [t.temporaryName name (n + k)])).isSome = true := by
  induction tries generalizing n with
  | zero =>
    intro k hk
    rw [Nat.le_zero.mp hk]
    exact h
  | succ tries ih =>
    rw [unusedName] at h
    split at h
    · next hUsed =>
      intro k hk
      cases k with
      | zero => exact hUsed
      | succ k =>
        rw [Nat.add_comm k 1, ← Nat.add_assoc]
        exact ih h k (by omega)
    · next hUnused => exact absurd h hUnused

/-- There are more candidates than entries, so the name that is settled on is not in use. -/
theorem get?_unusedName (t : Tree) (dir : Location) (name : String) :
    t.entries.get? (dir ++ [t.unusedName dir name t.entries.length 0]) = none := by
  by_contra hne
  have hUsed := isSome_of_unusedName (Option.isSome_iff_ne_none.mpr hne)
  let candidates := (List.range (t.entries.length + 1)).map fun k => dir ++ [t.temporaryName name k]
  have hNodup : candidates.Nodup := by
    refine List.nodup_range.map ?_
    intro m n h
    exact t.temporaryName_injective name (by simpa using h)
  have hSubset : candidates ⊆ t.entries.map Prod.fst := by
    intro l hl
    obtain ⟨k, hk, rfl⟩ := List.mem_map.mp hl
    have hk := hUsed k (Nat.lt_succ_iff.mp (List.mem_range.mp hk))
    rw [Nat.zero_add] at hk
    exact Entries.isSome_get?_iff.mp hk
  have hLength := hNodup.length_le_of_subset hSubset
  simp only [candidates, List.length_map, List.length_range] at hLength
  omega

/-- Where a write would put a file, or why it cannot. -/
def target? (t : Tree) (p : Path) : Except WriteFault Location :=
  match t.reachParent p with
  | .error fault => .error fault
  | .ok dir =>
    let temporary := t.unusedName dir p.name t.entries.length 0
    let shown := ((p.parent ++ { parts := [temporary] }).absolute t.here).text
    if Path.nameLimit < temporary.utf8ByteSize || Path.textLimit < shown.utf8ByteSize then
      .error (.nameTooLong shown)
    else if Path.textLimit < p.text.utf8ByteSize then .error (.pathTooLong shown p.text)
    else if !p.namesEntry then .error (.busy shown p.text)
    else if t.entries.get? (dir ++ [p.name]) = some .directory then .error (.isDirectory shown p.text)
    else .ok (dir ++ [p.name])

theorem isDirectoryAt_of_reachParent {t : Tree} {p : Path} {dir : Location}
    (h : t.reachParent p = .ok dir) : t.isDirectoryAt dir = true := by
  rw [reachParent] at h
  split at h
  · cases h
  · cases h
  · split at h
    · next hDir =>
      cases h
      exact hDir
    · cases h

theorem put_of_isDirectoryAt {t : Tree} {dir : Location} {name : String} (e : Entry)
    (hDir : t.isDirectoryAt dir = true) (hPlace : t.entries.get? (dir ++ [name]) ≠ some .directory) :
    (t.put (dir ++ [name]) e).entries = t.entries.set (dir ++ [name]) e := by
  rw [put, dif_pos]
  rw [List.dropLast_concat]
  exact ⟨hDir, hPlace⟩

theorem delete_put {t : Tree} {dir : Location} {name : String} (bytes : List UInt8)
    (hDir : t.isDirectoryAt dir = true) (hFree : t.entries.get? (dir ++ [name]) = none) :
    (t.put (dir ++ [name]) (.file bytes)).delete (dir ++ [name]) = t := by
  have hPlace : t.entries.get? (dir ++ [name]) ≠ some .directory := by
    rw [hFree]
    simp
  have hParent : t.entries.isDirectory (dir ++ [name]).dropLast = true := by
    rw [List.dropLast_concat]
    exact hDir
  have hFile : (t.entries.set (dir ++ [name]) (.file bytes)).get? (dir ++ [name]) ≠
      some .directory := by
    rw [Entries.get?_set_self]
    simp
  rw [put, dif_pos ⟨hParent, hPlace⟩, delete, dif_pos hFile]
  simp only [Entries.remove_set t.entries _ _ hFree]

theorem unusedName_ne (t : Tree) (dir : Location) (name : String) (tries n : Nat) :
    t.unusedName dir name tries n ≠ name := by
  obtain ⟨k, hk⟩ := t.unusedName_eq dir name tries n
  rw [hk]
  exact t.temporaryName_ne name k

theorem move_put {t : Tree} {dir : Location} {temporary : String} {p : Path} (bytes : List UInt8)
    (hDir : t.isDirectoryAt dir = true) (hFree : t.entries.get? (dir ++ [temporary]) = none)
    (hne : temporary ≠ p.name) (shown : String) :
    (t.put (dir ++ [temporary]) (.file bytes)).move (dir ++ [temporary]) shown dir p =
      if Path.textLimit < p.text.utf8ByteSize then .error (.pathTooLong shown p.text)
      else if !p.namesEntry then .error (.busy shown p.text)
      else if t.entries.get? (dir ++ [p.name]) = some .directory then
        .error (.isDirectory shown p.text)
      else .ok (t.put (dir ++ [p.name]) (.file bytes)) := by
  have hPlaces : dir ++ [p.name] ≠ dir ++ [temporary] := by simpa using hne.symm
  have hEntries : (t.put (dir ++ [temporary]) (.file bytes)).entries =
      t.entries.set (dir ++ [temporary]) (.file bytes) :=
    put_of_isDirectoryAt _ hDir (by rw [hFree]; simp)
  unfold move
  simp only [hEntries, Entries.get?_set_of_ne _ _ hPlaces, Entries.get?_set_self,
    delete_put bytes hDir hFree]

/-- A write puts the file at its place, or leaves the tree as it is. -/
theorem write_eq (t : Tree) (p : Path) (bytes : List UInt8) :
    t.write p bytes = match t.target? p with
      | .ok l => (.ok (), t.put l (.file bytes))
      | .error fault => (.error fault, t) := by
  unfold write target?
  cases hReach : t.reachParent p with
  | error fault => rfl
  | ok dir =>
    have hDir := isDirectoryAt_of_reachParent hReach
    have hFree := t.get?_unusedName dir p.name
    simp only [move_put bytes hDir hFree (t.unusedName_ne _ _ _ _), delete_put bytes hDir hFree]
    split_ifs <;> rfl

/-- The names that a write to a path uses are within the limits, where its parent leads to `dir`. -/
structure Fits (t : Tree) (p : Path) (dir : Location) : Prop where
  name : (t.unusedName dir p.name t.entries.length 0).utf8ByteSize ≤ Path.nameLimit
  temporary : ((p.parent ++ { parts := [t.unusedName dir p.name t.entries.length 0] }).absolute
    t.here).text.utf8ByteSize ≤ Path.textLimit
  text : p.text.utf8ByteSize ≤ Path.textLimit

theorem target?_eq_ok_iff {t : Tree} {p : Path} {l : Location} :
    t.target? p = .ok l ↔ ∃ dir, t.reachParent p = .ok dir ∧ t.Fits p dir ∧
      p.namesEntry = true ∧ t.entries.get? (dir ++ [p.name]) ≠ some .directory ∧
      l = dir ++ [p.name] := by
  unfold target?
  cases hReach : t.reachParent p with
  | error fault => simp
  | ok dir =>
    simp only [Except.ok.injEq, exists_eq_left']
    split_ifs with hLong hText hName hPlace
    · have hNot : ¬ t.Fits p dir := by
        intro hFits
        rcases Bool.or_eq_true_iff.mp hLong with hLong | hLong
        · exact absurd hFits.name (Nat.not_le.mpr (of_decide_eq_true hLong))
        · exact absurd hFits.temporary (Nat.not_le.mpr (of_decide_eq_true hLong))
      simp [hNot]
    · have hNot : ¬ t.Fits p dir := fun hFits => absurd hFits.text (Nat.not_le.mpr hText)
      simp [hNot]
    · have hName : p.namesEntry = false := by simpa using hName
      simp [hName]
    · simp [hPlace]
    · have hName : p.namesEntry = true := by simpa using hName
      have hFits : t.Fits p dir := by
        simp only [Bool.or_eq_true, decide_eq_true_eq, not_or, Nat.not_lt] at hLong
        exact ⟨hLong.1, hLong.2, Nat.not_lt.mp hText⟩
      simp [hFits, hName, hPlace, eq_comm]

/-- Trees that start relative paths at the same place and have the same directories. -/
structure SameDirectories (t t' : Tree) : Prop where
  here : t'.here = t.here
  isDirectoryAt : ∀ l, t'.isDirectoryAt l = t.isDirectoryAt l

namespace SameDirectories

variable {t t' : Tree}

theorem refl (t : Tree) : t.SameDirectories t := ⟨rfl, fun _ => rfl⟩

theorem trans {t'' : Tree} (h : t.SameDirectories t') (h' : t'.SameDirectories t'') :
    t.SameDirectories t'' :=
  ⟨h'.here.trans h.here, fun l => (h'.isDirectoryAt l).trans (h.isDirectoryAt l)⟩

/-- A step leads to the same place in both. Where there is none, the fault can differ in whether a file
is in the way. -/
theorem step (h : t.SameDirectories t') (l : Location) (part : String) :
    (t'.step l part).mapError (decide <| · = .nameTooLong) =
      (t.step l part).mapError (decide <| · = .nameTooLong) := by
  unfold Tree.step
  rw [h.isDirectoryAt l]
  split
  · rfl
  · split <;> split <;> rfl

theorem walk (h : t.SameDirectories t') (parts : List String) (l : Location) :
    (parts.foldlM t'.step l).mapError (decide <| · = .nameTooLong) =
      (parts.foldlM t.step l).mapError (decide <| · = .nameTooLong) := by
  induction parts generalizing l with
  | nil => rfl
  | cons part parts ih =>
    have hStep := h.step l part
    rw [List.foldlM_cons, List.foldlM_cons]
    cases hOne : t.step l part with
    | error fault =>
      cases hTwo : t'.step l part with
      | error fault' =>
        rw [hOne, hTwo] at hStep
        exact hStep
      | ok m =>
        rw [hOne, hTwo] at hStep
        cases hStep
    | ok m =>
      cases hTwo : t'.step l part with
      | error fault' =>
        rw [hOne, hTwo] at hStep
        cases hStep
      | ok m' =>
        rw [hOne, hTwo] at hStep
        cases hStep
        exact ih m

theorem locate (h : t.SameDirectories t') (p : Path) :
    (t'.locate p).mapError (decide <| · = .nameTooLong) =
      (t.locate p).mapError (decide <| · = .nameTooLong) := by
  unfold Tree.locate
  rw [h.here]
  split
  · rfl
  · split
    · rfl
    · exact h.walk p.parts _

theorem reachParent (h : t.SameDirectories t') (p : Path) : t'.reachParent p = t.reachParent p := by
  have hLocate := h.locate p.parent
  unfold Tree.reachParent
  cases hOne : t.locate p.parent with
  | error fault =>
    cases hTwo : t'.locate p.parent with
    | error fault' =>
      rw [hOne, hTwo] at hLocate
      cases fault <;> cases fault' <;> first | rfl | cases hLocate
    | ok dir =>
      rw [hOne, hTwo] at hLocate
      cases hLocate
  | ok dir =>
    cases hTwo : t'.locate p.parent with
    | error fault' =>
      rw [hOne, hTwo] at hLocate
      cases hLocate
    | ok dir' =>
      rw [hOne, hTwo] at hLocate
      cases hLocate
      simp only [h.isDirectoryAt dir]

end SameDirectories

variable {t : Tree} {p : Path} {l : Location}

theorem entries_put_of_target? (h : t.target? p = .ok l) (bytes : List UInt8) :
    (t.put l (.file bytes)).entries = t.entries.set l (.file bytes) := by
  obtain ⟨dir, hReach, -, -, hPlace, rfl⟩ := target?_eq_ok_iff.mp h
  exact put_of_isDirectoryAt _ (isDirectoryAt_of_reachParent hReach) hPlace

/-- A write changes what is at its place and nothing else. -/
theorem get?_put_of_target? (h : t.target? p = .ok l) (bytes : List UInt8) (m : Location) :
    (t.put l (.file bytes)).entries.get? m =
      if m = l then some (.file bytes) else t.entries.get? m := by
  rw [entries_put_of_target? h]
  split
  · next hm =>
    subst hm
    exact Entries.get?_set_self _ _ _
  · next hm => exact Entries.get?_set_of_ne _ _ hm

/-- A write makes and removes no directory. -/
theorem sameDirectories_put_of_target? (h : t.target? p = .ok l) (bytes : List UInt8) :
    t.SameDirectories (t.put l (.file bytes)) := by
  refine ⟨?_, fun m => ?_⟩
  · unfold put
    split <;> rfl
  · obtain ⟨dir, -, -, -, hPlace, rfl⟩ := target?_eq_ok_iff.mp h
    rw [isDirectoryAt, entries_put_of_target? h]
    exact Entries.isDirectory_set_file hPlace bytes m

/-- The place of the file at a path, if the directory for it is there. -/
def place? (t : Tree) (p : Path) : Option Location :=
  (t.reachParent p).toOption.map (· ++ [p.name])

theorem place?_of_target? (h : t.target? p = .ok l) : t.place? p = some l := by
  obtain ⟨dir, hReach, -, -, -, rfl⟩ := target?_eq_ok_iff.mp h
  rw [place?, hReach]
  rfl

theorem SameDirectories.place? {t' : Tree} (h : t.SameDirectories t') (p : Path) :
    t'.place? p = t.place? p := by
  rw [Tree.place?, h.reachParent, Tree.place?]

end Tree
end SeedScript.Files
