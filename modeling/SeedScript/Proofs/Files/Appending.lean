import SeedScript.Proofs.Files.Directories

/-!
# Writing at the end of a file

What is appended to a file stands behind what it held, every other place stays as it is, and appending
twice is appending once what both appended.
-/

namespace SeedScript.Files

namespace Entries

theorem set_set (es : Entries) (l : Location) (e e' : Entry) : (es.set l e).set l e' = es.set l e' := by
  induction es with
  | nil => exact if_pos rfl
  | cons x es ih =>
    by_cases h : l = x.1
    · simp [set, h]
    · simp [set, h, ih]

end Entries

namespace Tree

variable {t t' : Tree} {p : Path} {l : Location} {old bytes : List UInt8}

theorem put_put (t : Tree) (l : Location) {e : Entry} (e' : Entry) (hFile : e ≠ .directory) :
    (t.put l e).put l e' = t.put l e' := by
  by_cases h : t.entries.isDirectory l.dropLast = true ∧ t.entries.get? l ≠ some .directory
  · have hPut : (t.put l e).entries = t.entries.set l e := by rw [put, dif_pos h]
    have hPlace : (t.put l e).entries.get? l ≠ some .directory := by
      rw [hPut, Entries.get?_set_self]
      simpa using hFile
    have hParent : (t.put l e).entries.isDirectory l.dropLast = true :=
      (t.keepsDirectories_put l e).isDirectoryAt _ h.1
    rw [put, dif_pos ⟨hParent, hPlace⟩]
    simp only [put, dif_pos h, Entries.set_set]
  · have hSame : t.put l e = t := by rw [put, dif_neg h]
    rw [hSame]

/-- A path leads to a file. -/
structure HasFile (t : Tree) (p : Path) (l : Location) (old : List UInt8) : Prop where
  place : t.locate p = .ok l
  apart : t.isDirectoryAt l = false
  file : t.entries.get? l = some (.file old)

namespace HasFile

theorem append_eq (h : t.HasFile p l old) (bytes : List UInt8) :
    t.append p bytes = t.put l (.file (old ++ bytes)) := by
  simp only [append, h.place, h.file]

theorem entries_append (h : t.HasFile p l old) (bytes : List UInt8) :
    (t.append p bytes).entries = t.entries.set l (.file (old ++ bytes)) := by
  have hRoot : l ≠ [] := by
    rintro rfl
    cases h.apart
  -- the directory of the file is there, since the file is
  have hParent : t.isDirectoryAt l.dropLast = true := by
    have hLast : l.dropLast ++ [l.getLast hRoot] = l := List.dropLast_append_getLast hRoot
    have hFile := h.file
    rw [← hLast] at hFile
    exact t.closed _ _ _ hFile
  have hPlace : t.entries.get? l ≠ some .directory := by
    rw [h.file]
    nofun
  rw [h.append_eq, put, dif_pos ⟨hParent, hPlace⟩]

theorem keepsDirectories_append (h : t.HasFile p l old) (bytes : List UInt8) :
    t.KeepsDirectories (t.append p bytes) := by
  rw [h.append_eq]
  exact t.keepsDirectories_put l _

theorem hasFile_append (h : t.HasFile p l old) (bytes : List UInt8) :
    (t.append p bytes).HasFile p l (old ++ bytes) := by
  have hFile : (t.append p bytes).entries.get? l = some (.file (old ++ bytes)) := by
    rw [h.entries_append, Entries.get?_set_self]
  refine ⟨(h.keepsDirectories_append bytes).locate_eq_ok h.place, ?_, hFile⟩
  have hApart := h.apart
  simp only [isDirectoryAt, Entries.isDirectory, Bool.or_eq_false_iff] at hApart ⊢
  exact ⟨hApart.1, by rw [hFile]; rfl⟩

theorem read?_append (h : t.HasFile p l old) (bytes : List UInt8) :
    (t.append p bytes).read? p = some (old ++ bytes) :=
  read?_of_locate (h.hasFile_append bytes).place (h.hasFile_append bytes).file

theorem get?_append_of_ne (h : t.HasFile p l old) (bytes : List UInt8) {m : Location} (hm : m ≠ l) :
    (t.append p bytes).entries.get? m = t.entries.get? m := by
  rw [h.entries_append, Entries.get?_set_of_ne _ _ hm]

theorem append_append (h : t.HasFile p l old) (first rest : List UInt8) :
    (t.append p first).append p rest = t.append p (first ++ rest) := by
  rw [(h.hasFile_append first).append_eq, h.append_eq, h.append_eq, List.append_assoc]
  exact t.put_put l _ nofun

theorem append_nil (h : t.HasFile p l old) : t.append p [] = t := by
  rw [h.append_eq, List.append_nil]
  exact put_of_get? h.file

end HasFile

theorem locate_append_eq {name : String} {dir : Location} (hParent : t.locate p = .ok dir)
    (h : t.locate (p ++ ({ parts := [name] } : Path)) = .ok l) (hUp : name ≠ "..") :
    l = dir ++ [name] := by
  have hDirectory := isDirectoryAt_of_locate_append hParent h
  obtain ⟨-, -, hWalk⟩ := locate_eq_ok_iff.mp hParent
  obtain ⟨-, -, hLast⟩ := locate_eq_ok_iff.mp h
  change (p.parts ++ [name]).foldlM t.step (if p.isAbsolute then [] else t.here) = .ok l at hLast
  rw [List.foldlM_append, hWalk] at hLast
  change [name].foldlM t.step dir = .ok l at hLast
  rw [List.foldlM_cons, step, if_pos hDirectory, if_neg hUp] at hLast
  split at hLast
  · cases hLast
  · cases hLast
    rfl

/-- A file that has been opened to be written at its end is there, if a place for it is. -/
theorem hasFile_of_openEnd (h : t.openEnd p = .ok t') (hPlace : t'.locate p = .ok l)
    (hParent : t'.isDirectoryAt l.dropLast = true) : ∃ old, t'.HasFile p l old := by
  obtain ⟨-, -, hApart, hAgain⟩ := openEnd_eq_ok_iff.mp (openEnd_idem h)
  have hNot := hApart l hPlace
  cases hEntry : t'.entries.get? l with
  | some e =>
    cases e with
    | file old => exact ⟨old, hPlace, hNot, hEntry⟩
    | directory => simp [isDirectoryAt, Entries.isDirectory, hEntry] at hNot
  | none =>
    -- opening it again would make it
    have hFree : t'.entries.get? l ≠ some .directory := by
      rw [hEntry]
      exact (Option.some_ne_none _).symm
    have hMade : t'.append p [] = t'.put l (.file []) := by simp only [append, hPlace, hEntry]
    have hEntries : t'.entries = t'.entries.set l (.file []) := by
      conv_lhs => rw [hAgain, hMade, put, dif_pos ⟨hParent, hFree⟩]
    rw [hEntries, Entries.get?_set_self] at hEntry
    cases hEntry

end Tree
end SeedScript.Files
