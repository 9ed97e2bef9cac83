import SeedScript.Proofs.Sql.Whole

/-!
# Cut scripts

The script of a set is cut into its statements exactly if each of them is whole. A text is cut off at the
semicolon behind it only if it is whole, and white space around it makes no difference.
-/

namespace SeedScript

namespace Sql

theorem Mode.isOrdinary_of_isBlank {c : Char} (h : Text.isBlank c = true) : isOrdinary c = true :=
  isOrdinary_of_class (by decide) (by decide) (by decide) (by decide) h

/-- Ordinary characters do not lead out of a literal, a name or a body. -/
theorem Mode.isOutside_of_advance {m m' : Mode} {cs : List Char} (hcs : ∀ c ∈ cs, isOrdinary c = true)
    (h : m.advance cs = some m') (hOutside : m'.isOutside = true) : m.isOutside = true := by
  induction cs generalizing m with
  | nil =>
    cases h
    exact hOutside
  | cons c cs ih =>
    rw [advance] at h
    split at h
    · cases h
    · have hNext := ih (fun x hx => hcs x (List.mem_cons_of_mem _ hx)) h
      have hc := hcs c List.mem_cons_self
      simp only [isOrdinary, Bool.and_eq_true, decide_eq_true_eq] at hc
      obtain ⟨⟨⟨hQuote, hName⟩, hDollar⟩, -⟩ := hc
      cases m <;> simp_all [isOutside, next]

/-- Ordinary characters around a text do not make it whole and do not keep it from being whole. -/
theorem isWhole_between_iff {front text back : List Char} (hFront : ∀ c ∈ front, Mode.isOrdinary c = true)
    (hBack : ∀ c ∈ back, Mode.isOrdinary c = true) : IsWhole (front ++ text ++ back) ↔ IsWhole text := by
  have hLead : Mode.plain.advance front = some .plain := by
    by_cases hne : front = []
    · rw [hne, Mode.advance]
    · exact Mode.advance_ordinary rfl hne hFront
  rw [List.append_assoc]
  constructor
  · rintro ⟨m', h, hOutside⟩
    rw [Mode.advance_append_of_eq hLead, Mode.advance_append] at h
    obtain ⟨m, hText, hRest⟩ := Option.bind_eq_some_iff.mp h
    exact ⟨m, hText, Mode.isOutside_of_advance hBack hRest hOutside⟩
  · intro h
    refine .append hLead ?_
    by_cases hne : back = []
    · rwa [hne, List.append_nil]
    · exact ⟨.plain, h.advance_append back hne (List.all_eq_true.mpr hBack), rfl⟩

theorem isWhole_strip_iff {s : String} : IsWhole (Text.strip s).toList ↔ IsWhole s.toList := by
  obtain ⟨front, back, hSplit, hFront, hBack⟩ := Text.exists_trimList Text.isBlank s.toList
  have hBetween : IsWhole (front ++ Text.trimList Text.isBlank s.toList ++ back) ↔
      IsWhole (Text.trimList Text.isBlank s.toList) :=
    isWhole_between_iff (fun c hc => Mode.isOrdinary_of_isBlank (hFront c hc))
      fun c hc => Mode.isOrdinary_of_isBlank (hBack c hc)
  rw [← hSplit] at hBetween
  rw [Text.strip, String.toList_ofList, hBetween]

/-- Where the first statement of a script ends. -/
theorem exists_of_statementsFrom {m : Mode} {piece cs : List Char} {x : String} {xs : List String}
    (h : statementsFrom m piece cs = some (x :: xs)) : ∃ front back,
      cs = front ++ ';' :: back ∧ (∃ m', m.advance front = some m' ∧ m'.isOutside = true) ∧
      String.ofList (Text.trimList isSpace (piece ++ front)) = x ∧
      statementsFrom .plain [] back = some xs := by
  induction cs generalizing m piece with
  | nil =>
    rw [statementsFrom] at h
    split at h <;> cases h
  | cons c cs ih =>
    rw [statementsFrom] at h
    split at h
    · next hEnd =>
      obtain ⟨others, hOthers, hCut⟩ := Option.map_eq_some_iff.mp h
      obtain ⟨rfl, rfl⟩ := List.cons.inj hCut
      rw [Bool.and_eq_true, decide_eq_true_eq] at hEnd
      exact ⟨[], cs, by rw [hEnd.1]; rfl, ⟨m, rfl, hEnd.2⟩, by rw [List.append_nil], hOthers⟩
    · next hEnd =>
      obtain ⟨front, back, rfl, ⟨m', hAdvance, hOutside⟩, hPiece, hBack⟩ := ih h
      refine ⟨c :: front, back, rfl, ⟨m', ?_, hOutside⟩, ?_, hBack⟩
      · rw [Mode.advance, if_neg hEnd, hAdvance]
      · rwa [List.append_assoc] at hPiece

/-- A text that is cut off at the semicolon behind it is whole: at an earlier semicolon a shorter text is
cut off, and at a later one a text with one more semicolon. -/
theorem isWhole_of_statementsFrom {blanks text rest : List Char} {xs : List String}
    (hBlanks : blanks.all isSpace = true)
    (h : statementsFrom .plain blanks (text ++ ';' :: rest) = some (String.ofList text :: xs)) :
    IsWhole text ∧ statementsFrom .plain [] rest = some xs := by
  obtain ⟨front, back, hSplit, hWhole, hPiece, hBack⟩ := exists_of_statementsFrom h
  rw [Text.trimList_append_left (List.all_eq_true.mp hBlanks), String.ofList_inj] at hPiece
  have hCount : text.count ';' = front.count ';' := by
    rw [← hPiece, Text.count_trimList (by decide)]
  have hLength : text.length ≤ front.length := by
    rw [← hPiece]
    exact Text.length_trimList_le isSpace front
  have hSame : text = front := by
    rcases List.append_eq_append_iff.mp hSplit with ⟨more, rfl, hRest⟩ | ⟨more, rfl, -⟩
    · cases more with
      | nil => exact (List.append_nil text).symm
      | cons c more =>
        obtain ⟨rfl, -⟩ := List.cons.inj hRest
        rw [List.count_append, List.count_cons_self] at hCount
        omega
    · cases more with
      | nil => exact List.append_nil front
      | cons c more =>
        rw [List.length_append, List.length_cons] at hLength
        omega
  subst hSame
  obtain ⟨-, rfl⟩ := List.cons.inj (List.append_cancel_left hSplit)
  exact ⟨hWhole, hBack⟩

/-- A script that is cut into its statements has only whole ones. -/
theorem isWhole_of_statementsFrom_join {blanks : List Char} (hBlanks : blanks.all isSpace = true)
    {s : String} {rest : List String}
    (h : statementsFrom .plain blanks
      ((Text.join StatementSet.separator ((s :: rest).map Text.strip)).toList ++ [';', '\n']) =
        some ((s :: rest).map Text.strip)) :
    ∀ x ∈ s :: rest, IsWhole (Text.strip x).toList := by
  induction rest generalizing s blanks with
  | nil =>
    have hCut : [s].map Text.strip = [String.ofList (Text.strip s).toList] := by
      rw [List.map_singleton, String.ofList_toList]
    rw [hCut, Text.join_singleton, String.toList_ofList] at h
    have hs := isWhole_of_statementsFrom hBlanks h
    simpa using hs.1
  | cons t rest ih =>
    have hCut : (s :: t :: rest).map Text.strip =
        String.ofList (Text.strip s).toList :: (t :: rest).map Text.strip := by
      rw [List.map_cons, String.ofList_toList]
    rw [toList_join_strip, List.append_assoc, List.cons_append, List.append_assoc, hCut] at h
    obtain ⟨hs, hRest⟩ := isWhole_of_statementsFrom hBlanks h
    rw [statementsFrom_space (by decide)] at hRest
    exact List.forall_mem_cons.mpr ⟨hs, ih rfl hRest⟩

end Sql

namespace StatementSet

open Sql

/-- Whether the script of a set is cut into its statements. -/
def IsCut (s : StatementSet) : Prop :=
  statements? s.script = some (s.statements.map Text.strip)

theorem isCut_iff {s : StatementSet} : s.IsCut ↔ ∀ x ∈ s.statements, IsWhole x.toList := by
  constructor
  · intro h x hx
    rw [← isWhole_strip_iff]
    unfold IsCut statements? script at h
    cases hs : s.statements with
    | nil => simp [hs] at hx
    | cons y rest =>
      rw [hs] at h hx
      exact isWhole_of_statementsFrom_join rfl (by simpa using h) x hx
  · exact fun h => statements?_script fun x hx => isWhole_strip_iff.mpr (h x hx)

end StatementSet
end SeedScript
