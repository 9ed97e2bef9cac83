import SeedScript.Output
import SeedScript.Proofs.Files.Reading

/-!
# What writing outputs leaves behind

Outputs are written one after the other. What is on disk afterwards is what was there before, with
each output that was written put at its place, in order. The first output that cannot be written stops
the rest and leaves no trace. At the path of an output stands what was written last to its place.
-/

namespace SeedScript

open Files (Entry Location Path Tree)

namespace Text

theorem mem_of_mem_splitList {α : Type} {p : α → Bool} {xs piece : List α} {x : α}
    (hPiece : piece ∈ splitList p xs) (hx : x ∈ piece) : x ∈ xs := by
  induction xs generalizing piece with
  | nil =>
    rw [splitList, List.mem_singleton] at hPiece
    rwa [hPiece] at hx
  | cons y ys ih =>
    rw [splitList] at hPiece
    split at hPiece
    · rcases List.mem_cons.mp hPiece with rfl | hPiece
      · cases hx
      · exact List.mem_cons_of_mem _ (ih hPiece hx)
    · split at hPiece
      · next hNone => exact absurd hNone (splitList_ne_nil p ys)
      · next first pieces hPieces =>
        rw [hPieces] at ih
        rcases List.mem_cons.mp hPiece with rfl | hPiece
        · rcases List.mem_cons.mp hx with rfl | hx
          · exact List.mem_cons_self
          · exact List.mem_cons_of_mem _ (ih List.mem_cons_self hx)
        · exact List.mem_cons_of_mem _ (ih (List.mem_cons_of_mem _ hPiece) hx)

theorem mem_of_mem_split {separator c : Char} {s piece : String} (hPiece : piece ∈ split separator s)
    (hc : c ∈ piece.toList) : c ∈ s.toList := by
  obtain ⟨cs, hcs, rfl⟩ := List.mem_map.mp hPiece
  rw [String.toList_ofList] at hc
  exact mem_of_mem_splitList hcs hc

end Text

theorem Files.Path.mem_of_mem_name_ofText {s : String} {c : Char}
    (h : c ∈ (Path.ofText s).name.toList) : c ∈ s.toList := by
  rw [Path.name, Path.ofText] at h
  cases hLast : ((Text.split '/' s).filter fun part => part ≠ "" && part ≠ ".").getLast? with
  | none =>
    rw [hLast] at h
    cases h
  | some part =>
    rw [hLast, Option.getD_some] at h
    exact Text.mem_of_mem_split (List.mem_filter.mp (List.mem_of_getLast? hLast)).1 h

namespace Output

/-- An output is put at its place, or is a failure of its stage and changes nothing. -/
theorem write_eq {o : Output} (hNull : '\x00' ∉ o.path.name.toList) (t : Tree) :
    o.write t = match t.target? o.path with
      | .ok l => (.ok (), t.put l (.file o.bytes))
      | .error fault => (.error (.ofProblem (o.problem fault) o.path.text), t) := by
  rw [write, if_neg (by simp [hNull])]
  rw [Tree.write_eq]
  cases t.target? o.path <;> rfl

theorem stage_problem (o : Output) (fault : WriteFault) : (o.problem fault).stage = .write := by
  unfold problem
  cases o.product <;> rfl

theorem type_problem (o : Output) (fault : WriteFault) :
    (o.problem fault).type = "ScriptIoError" := by
  unfold problem
  cases o.product <;> rfl

/-- The bytes that an output puts at its place: those of the script of its set, or those of the export. -/
inductive Puts : Output → List UInt8 → Prop
  | script {path : Path} {s : StatementSet} : Puts ⟨.script, path, s⟩ (Text.Utf8.encode s.script)
  | identifiers {path : Path} {s : StatementSet} :
      Puts ⟨.identifiers, path, s⟩ (Text.Utf8.encode s.exportText)

theorem puts_iff {o : Output} {bytes : List UInt8} : o.Puts bytes ↔ o.bytes = bytes := by
  constructor
  · rintro (_ | _) <;> rfl
  · rintro rfl
    obtain ⟨product, path, s⟩ := o
    cases product with
    | script => exact .script
    | identifiers => exact .identifiers

theorem puts_bytes (o : Output) : o.Puts o.bytes :=
  puts_iff.mpr rfl

inductive Written : Tree → List Output → Tree → Prop
  | nil (t : Tree) : Written t [] t
  | cons {t t' : Tree} {o : Output} {bytes : List UInt8} {done : List Output} {l : Location} :
      t.target? o.path = .ok l → o.Puts bytes → Written (t.put l (.file bytes)) done t' →
        Written t (o :: done) t'

/-- What is at a place after outputs: what the last one that goes there has put there, or else what was there
at the start. -/
inductive LeftAt (t : Tree) (l : Location) : List Output → Option Entry → Prop
  | last {before later : List Output} {o : Output} {bytes : List UInt8} :
      t.place? o.path = some l → (∀ x ∈ later, t.place? x.path ≠ some l) → o.Puts bytes →
        LeftAt t l (before ++ o :: later) (some (.file bytes))
  | untouched {done : List Output} : (∀ o ∈ done, t.place? o.path ≠ some l) →
      LeftAt t l done (t.entries.get? l)

theorem LeftAt.of_singleton {t : Tree} {l : Location} {o : Output} {content : Option Entry}
    (h : LeftAt t l [o] content) :
    (t.place? o.path = some l ∧ ∃ bytes, o.Puts bytes ∧ content = some (.file bytes)) ∨
      (t.place? o.path ≠ some l ∧ content = t.entries.get? l) := by
  generalize hDone : [o] = done at h
  cases h with
  | @last before later x bytes hPlace _ hPuts =>
    rcases List.cons_eq_append_iff.mp hDone with ⟨rfl, hSame⟩ | ⟨_, rfl, hSame⟩
    · cases hSame
      exact .inl ⟨hPlace, bytes, hPuts, rfl⟩
    · simp at hSame
  | untouched hNone =>
    cases hDone
    exact .inr ⟨hNone o List.mem_cons_self, rfl⟩

/-- What is at a place when the outputs of that place have replaced each other in order. -/
def contentAfter (t : Tree) (done : List Output) (l : Location) : Option Entry :=
  done.foldl (fun content o => if t.place? o.path = some l then some (.file o.bytes) else content)
    (t.entries.get? l)

theorem contentAfter_eq_of_last {t : Tree} {before later : List Output} {o : Output} {l : Location}
    (hPlace : t.place? o.path = some l) (hLater : ∀ x ∈ later, t.place? x.path ≠ some l) :
    contentAfter t (before ++ o :: later) l = some (.file o.bytes) := by
  rw [contentAfter, List.foldl_append, List.foldl_cons, if_pos hPlace]
  clear hPlace
  induction later with
  | nil => rfl
  | cons x later ih =>
    rw [List.foldl_cons, if_neg (hLater x List.mem_cons_self)]
    exact ih fun y hy => hLater y (List.mem_cons_of_mem _ hy)

theorem contentAfter_of_none {t : Tree} {outputs : List Output} {l : Location}
    (h : ∀ o ∈ outputs, t.place? o.path ≠ some l) : contentAfter t outputs l = t.entries.get? l := by
  unfold contentAfter
  induction outputs with
  | nil => rfl
  | cons o outputs ih =>
    obtain ⟨hPlace, hRest⟩ := List.forall_mem_cons.mp h
    rw [List.foldl_cons, if_neg hPlace]
    exact ih hRest

/-- Either one of the outputs is the last that goes to a place, or none of them goes there. -/
theorem exists_last_or_none (t : Tree) (outputs : List Output) (l : Location) :
    (∃ before o later, outputs = before ++ o :: later ∧ t.place? o.path = some l ∧
      ∀ x ∈ later, t.place? x.path ≠ some l) ∨ ∀ o ∈ outputs, t.place? o.path ≠ some l := by
  induction outputs with
  | nil => exact .inr (List.forall_mem_nil _)
  | cons o outputs ih =>
    rcases ih with ⟨before, last, later, rfl, hLast, hLater⟩ | hNone
    · exact .inl ⟨o :: before, last, later, rfl, hLast, hLater⟩
    · by_cases hLast : t.place? o.path = some l
      · exact .inl ⟨[], o, outputs, rfl, hLast, hNone⟩
      · exact .inr (List.forall_mem_cons.mpr ⟨hLast, hNone⟩)

theorem leftAt_contentAfter (t : Tree) (done : List Output) (l : Location) :
    LeftAt t l done (contentAfter t done l) := by
  rcases exists_last_or_none t done l with ⟨before, o, later, rfl, hLast, hLater⟩ | hNone
  · rw [contentAfter_eq_of_last hLast hLater]
    exact .last hLast hLater o.puts_bytes
  · rw [contentAfter_of_none hNone]
    exact .untouched hNone

namespace Written

variable {t t' : Tree} {done : List Output}

theorem sameDirectories (h : Written t done t') : t.SameDirectories t' := by
  induction h with
  | nil t => exact .refl t
  | cons hTarget _ _ ih => exact (Tree.sameDirectories_put_of_target? hTarget _).trans ih

/-- Nothing is on disk but what was there and what was written. -/
theorem get?_entries (h : Written t done t') (l : Location) :
    t'.entries.get? l = contentAfter t done l := by
  induction h with
  | nil t => rfl
  | @cons t t' o bytes done m hTarget hPuts _ ih =>
    have hSame := Tree.sameDirectories_put_of_target? hTarget bytes
    have hPlace := Tree.place?_of_target? hTarget
    cases puts_iff.mp hPuts
    rw [ih]
    simp only [contentAfter, List.foldl_cons, hSame.place?, hPlace,
      Tree.get?_put_of_target? hTarget, Option.some.injEq, eq_comm]

/-- Where writing stops is determined: at the first output that has no place to go to. -/
theorem unique {t'' : Tree} {done' rest rest' : List Output} (h : Written t done t')
    (h' : Written t done' t'') (hSame : done ++ rest = done' ++ rest')
    (hStop : ∀ o ∈ rest.head?, ∀ l, t'.target? o.path ≠ .ok l)
    (hStop' : ∀ o ∈ rest'.head?, ∀ l, t''.target? o.path ≠ .ok l) :
    done = done' ∧ rest = rest' ∧ t' = t'' := by
  induction h generalizing done' with
  | nil t =>
    cases h' with
    | nil => exact ⟨rfl, hSame, rfl⟩
    | cons hTarget _ _ =>
      cases (hSame : rest = _)
      exact absurd hTarget (hStop _ rfl _)
  | cons hTarget hPuts _ ih =>
    cases h' with
    | nil =>
      cases (hSame : _ = rest')
      exact absurd hTarget (hStop' _ rfl _)
    | cons hTarget' hPuts' hRest' =>
      obtain ⟨rfl, hRest⟩ := List.cons_eq_cons.mp hSame
      cases hTarget.symm.trans hTarget'
      cases (puts_iff.mp hPuts).symm.trans (puts_iff.mp hPuts')
      obtain ⟨rfl, rfl, rfl⟩ := ih hRest' hRest hStop
      exact ⟨rfl, rfl, rfl⟩

theorem leftAt (h : Written t done t') (l : Location) : LeftAt t l done (t'.entries.get? l) := by
  rw [h.get?_entries]
  exact leftAt_contentAfter t done l

end Written

/-- Outputs are written in order up to the first that cannot be. -/
theorem writeAll_eq {outputs : List Output}
    (hNull : ∀ o ∈ outputs, '\x00' ∉ o.path.name.toList) (t : Tree) :
    ∃ done rest t', outputs = done ++ rest ∧ Written t done t' ∧
      (rest = [] ∧ writeAll t outputs = (.ok (), done.map written, t') ∨
        ∃ o left fault, rest = o :: left ∧ t'.target? o.path = .error fault ∧
          writeAll t outputs =
            (.error (.ofProblem (o.problem fault) o.path.text), done.map written, t')) := by
  induction outputs generalizing t with
  | nil => exact ⟨[], [], t, rfl, .nil t, .inl ⟨rfl, rfl⟩⟩
  | cons o outputs ih =>
    have hWrite := write_eq (hNull o List.mem_cons_self) t
    cases hTarget : t.target? o.path with
    | error fault =>
      rw [hTarget] at hWrite
      refine ⟨[], o :: outputs, t, rfl, .nil t, .inr ⟨o, outputs, fault, rfl, hTarget, ?_⟩⟩
      rw [writeAll_of_error hWrite]
      rfl
    | ok l =>
      rw [hTarget] at hWrite
      obtain ⟨done, rest, t', rfl, hWritten, hEnd⟩ :=
        ih (fun x hx => hNull x (List.mem_cons_of_mem _ hx)) (t.put l (.file o.bytes))
      refine ⟨o :: done, rest, t', rfl, .cons hTarget o.puts_bytes hWritten, ?_⟩
      rcases hEnd with ⟨rfl, hAll⟩ | ⟨o', left, fault, rfl, hFault, hAll⟩
      · refine .inl ⟨rfl, ?_⟩
        rw [writeAll_of_ok hWrite, hAll]
        rfl
      · refine .inr ⟨o', left, fault, rfl, hFault, ?_⟩
        rw [writeAll_of_ok hWrite, hAll]
        rfl

theorem target?_of_write {o : Output} {t t' : Tree} (h : o.write t = (.ok (), t')) :
    '\x00' ∉ o.path.name.toList ∧
      ∃ l, t.target? o.path = .ok l ∧ t' = t.put l (.file o.bytes) := by
  rw [write, Tree.write_eq] at h
  split at h
  · cases h
  · next hNot =>
    cases hTarget : t.target? o.path with
    | error fault =>
      rw [hTarget] at h
      cases h
    | ok l =>
      rw [hTarget] at h
      cases h
      obtain ⟨dir, hReach, -⟩ := Tree.target?_eq_ok_iff.mp hTarget
      refine ⟨?_, l, rfl, rfl⟩
      intro hNull
      exact hNot (by simp [hReach, hNull, Except.isOk, Except.toBool])

theorem written_of_writeAll {outputs : List Output} {t t' : Tree} {events : List Log.Event}
    (h : writeAll t outputs = (.ok (), events, t')) :
    Written t outputs t' ∧ ∀ o ∈ outputs, '\x00' ∉ o.path.name.toList := by
  induction outputs generalizing t events with
  | nil =>
    cases h
    exact ⟨.nil _, List.forall_mem_nil _⟩
  | cons o outputs ih =>
    rcases hWrite : o.write t with ⟨e | u, next⟩
    · rw [writeAll_of_error hWrite] at h
      cases h
    · rcases hAll : writeAll next outputs with ⟨result, rest, last⟩
      rw [writeAll_of_ok hWrite, hAll] at h
      cases h
      obtain ⟨hNull, l, hTarget, rfl⟩ := target?_of_write hWrite
      obtain ⟨hWritten, hNulls⟩ := ih hAll
      exact ⟨.cons hTarget o.puts_bytes hWritten, List.forall_mem_cons.mpr ⟨hNull, hNulls⟩⟩

theorem writeAll_cons {o : Output} {outputs : List Output} {t : Tree} {l : Location}
    (hNull : '\x00' ∉ o.path.name.toList) (hTarget : t.target? o.path = .ok l) :
    writeAll t (o :: outputs) =
      ((writeAll (t.put l (.file o.bytes)) outputs).1,
        o.written :: (writeAll (t.put l (.file o.bytes)) outputs).2.1,
        (writeAll (t.put l (.file o.bytes)) outputs).2.2) := by
  have hWrite := write_eq hNull t
  rw [hTarget] at hWrite
  exact writeAll_of_ok hWrite

theorem writeAll_of_written {outputs : List Output} {t t' : Tree} (h : Written t outputs t')
    (hNull : ∀ o ∈ outputs, '\x00' ∉ o.path.name.toList) :
    writeAll t outputs = (.ok (), outputs.map written, t') := by
  induction h with
  | nil t => rfl
  | @cons t t' o bytes outputs l hTarget hPuts _ ih =>
    obtain ⟨hFirst, hRest⟩ := List.forall_mem_cons.mp hNull
    cases puts_iff.mp hPuts
    rw [writeAll_cons hFirst hTarget, ih hRest]
    rfl

namespace Written

variable {t t' : Tree} {done : List Output}

theorem locate (h : Written t done t') {o : Output} (ho : o ∈ done)
    (hNull : '\x00' ∉ o.path.name.toList) :
    ∃ l, t.place? o.path = some l ∧ t'.locate o.path = .ok l := by
  induction h with
  | nil t => cases ho
  | @cons t t' x bytes done l hTarget _ hRest ih =>
    have hSame := Tree.sameDirectories_put_of_target? hTarget bytes
    rcases List.mem_cons.mp ho with rfl | ho
    · have hLocate := hSame.locate_eq_ok (Tree.locate_of_target? hTarget hNull)
      exact ⟨l, Tree.place?_of_target? hTarget, hRest.sameDirectories.locate_eq_ok hLocate⟩
    · obtain ⟨m, hPlace, hLocate⟩ := ih ho
      rw [hSame.place?] at hPlace
      exact ⟨m, hPlace, hLocate⟩

/-- What is read at the path of an output is the output, unless a later one goes to its place. -/
theorem read?_of_last {before later : List Output} {o : Output}
    (h : Written t (before ++ o :: later) t') (hNull : '\x00' ∉ o.path.name.toList)
    (hLater : ∀ x ∈ later, t.place? x.path ≠ t.place? o.path) {bytes : List UInt8}
    (hPuts : o.Puts bytes) : t'.read? o.path = some bytes := by
  obtain ⟨l, hPlace, hLocate⟩ := h.locate (by simp) hNull
  apply Tree.read?_of_locate hLocate
  cases puts_iff.mp hPuts
  rw [h.get?_entries]
  apply contentAfter_eq_of_last hPlace
  intro x hx
  rw [← hPlace]
  exact hLater x hx

end Written
end Output
end SeedScript
