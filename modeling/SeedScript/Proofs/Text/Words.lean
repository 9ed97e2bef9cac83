import Mathlib.Data.List.Chain
import SeedScript.Proofs.Text.Trim

/-!
# Words

The words of a text are its longest runs without white space. A relation that reads the text from the
left says which they are, and cutting the text into words computes it. Main statements: words joined by
single spaces are the words of the join, and the join has no white space but one character of it between
two words.
-/

namespace SeedScript.Text

variable {α : Type} {p : α → Bool}

/-- The longest runs of items outside a class. A run ends where the list does, or in front of an item of
the class. -/
inductive HasRuns (p : α → Bool) : List α → List (List α) → Prop
  | nil : HasRuns p [] []
  | skip {x : α} {xs : List α} {runs : List (List α)} : p x = true → HasRuns p xs runs →
      HasRuns p (x :: xs) runs
  | run {run rest : List α} {runs : List (List α)} : run ≠ [] → (∀ x ∈ run, p x = false) →
      (∀ x, rest.head? = some x → p x = true) → HasRuns p rest runs →
      HasRuns p (run ++ rest) (run :: runs)

theorem splitRuns_skip {x : α} (hx : p x = true) (xs : List α) :
    splitRuns p (x :: xs) = splitRuns p xs := by
  rw [splitRuns.eq_def]
  simp [hx]

theorem splitRuns_append {run rest : List α} (hne : run ≠ []) (hRun : ∀ x ∈ run, p x = false)
    (hRest : ∀ x, rest.head? = some x → p x = true) :
    splitRuns p (run ++ rest) = run :: splitRuns p rest := by
  induction run with
  | nil => exact absurd rfl hne
  | cons x run ih =>
    rw [List.forall_mem_cons] at hRun
    obtain ⟨hx, hRun⟩ := hRun
    rw [List.cons_append, splitRuns.eq_def]
    -- the cut looks one item ahead: behind the last item of the run there is none of a run
    cases run with
    | nil =>
      cases rest with
      | nil => simp [hx, splitRuns]
      | cons y ys =>
        have hy : p y = true := hRest y rfl
        cases hRuns : splitRuns p (y :: ys) <;> simp [hx, hy, hRuns]
    | cons y run =>
      have hy : p y = false := hRun y List.mem_cons_self
      have hTail := ih (List.cons_ne_nil y run) hRun
      rw [List.cons_append] at hTail
      simp [hx, hy, hTail]

namespace HasRuns

theorem eq_splitRuns {xs : List α} {runs : List (List α)} (h : HasRuns p xs runs) :
    runs = splitRuns p xs := by
  induction h with
  | nil => rfl
  | skip hx _ ih => rw [splitRuns_skip hx, ih]
  | run hne hRun hRest _ ih => rw [splitRuns_append hne hRun hRest, ih]

/-- An item in front lengthens the first run, or is one by itself. -/
theorem exists_cons {x : α} {xs : List α} {runs : List (List α)} (hx : p x = false)
    (h : HasRuns p xs runs) : ∃ runs', HasRuns p (x :: xs) runs' := by
  have hAlone : ∀ y ∈ [x], p y = false := by simpa using hx
  cases h with
  | nil => exact ⟨_, .run (List.cons_ne_nil x []) hAlone (by simp) .nil⟩
  | skip hy h =>
    refine ⟨_, .run (List.cons_ne_nil x []) hAlone ?_ (.skip hy h)⟩
    simpa using hy
  | @run run _ _ _ hRun hRest h =>
    have hLonger : ∀ y ∈ x :: run, p y = false := List.forall_mem_cons.mpr ⟨hx, hRun⟩
    exact ⟨_, .run (List.cons_ne_nil x run) hLonger hRest h⟩

theorem plain {xs : List α} {runs : List (List α)} (h : HasRuns p xs runs) :
    ∀ run ∈ runs, run ≠ [] ∧ ∀ x ∈ run, p x = false := by
  induction h with
  | nil => simp
  | skip _ _ ih => exact ih
  | run hne hRun _ _ ih => exact List.forall_mem_cons.mpr ⟨⟨hne, hRun⟩, ih⟩

end HasRuns

theorem exists_hasRuns (p : α → Bool) (xs : List α) : ∃ runs, HasRuns p xs runs := by
  induction xs with
  | nil => exact ⟨[], .nil⟩
  | cons x xs ih =>
    obtain ⟨runs, h⟩ := ih
    cases hx : p x with
    | true => exact ⟨runs, .skip hx h⟩
    | false => exact h.exists_cons hx

theorem hasRuns_iff {xs : List α} {runs : List (List α)} :
    HasRuns p xs runs ↔ runs = splitRuns p xs := by
  constructor
  · exact HasRuns.eq_splitRuns
  · rintro rfl
    obtain ⟨runs, h⟩ := exists_hasRuns p xs
    rwa [← h.eq_splitRuns]

/-! ## Words of a text -/

def HasWords (s : String) (ws : List String) : Prop :=
  HasRuns isBlank s.toList (ws.map String.toList)

theorem hasWords_iff {s : String} {ws : List String} : HasWords s ws ↔ ws = words s := by
  rw [HasWords, hasRuns_iff, words]
  constructor
  · intro h
    rw [← h, List.map_map, String.ofList_comp_toList, List.map_id]
  · rintro rfl
    rw [List.map_map, String.toList_comp_ofList, List.map_id]

/-- A text that is one word. -/
structure IsWord (w : String) : Prop where
  ne_nil : w.toList ≠ []
  plain : ∀ c ∈ w.toList, isBlank c = false

theorem isWord_of_mem_words {s w : String} (h : w ∈ words s) : IsWord w := by
  have hWords : HasWords s (words s) := hasWords_iff.mpr rfl
  obtain ⟨hne, hPlain⟩ := hWords.plain _ (List.mem_map_of_mem h)
  exact ⟨hne, hPlain⟩

theorem IsWord.exists_head? {w : String} (h : IsWord w) :
    ∃ c, w.toList.head? = some c ∧ isBlank c = false :=
  ⟨_, List.head?_eq_some_head h.ne_nil, h.plain _ (List.head_mem h.ne_nil)⟩

theorem hasWords_join {ws : List String} (h : ∀ w ∈ ws, IsWord w) : HasWords (join " " ws) ws := by
  induction ws with
  | nil => exact .nil
  | cons w ws ih =>
    obtain ⟨hw, hws⟩ := List.forall_mem_cons.mp h
    cases ws with
    | nil =>
      have hRun : HasRuns isBlank (w.toList ++ []) [w.toList] :=
        .run hw.ne_nil hw.plain (by simp) .nil
      rwa [List.append_nil] at hRun
    | cons v ws =>
      have hSpace : isBlank ' ' = true := by decide
      have hEnd : ∀ c, (' ' :: (join " " (v :: ws)).toList).head? = some c → isBlank c = true := by
        rintro c ⟨⟩
        exact hSpace
      rw [HasWords, join_cons_cons, String.toList_append, String.toList_append, List.append_assoc]
      exact .run hw.ne_nil hw.plain hEnd (.skip hSpace (ih hws))

theorem words_join {ws : List String} (h : ∀ w ∈ ws, IsWord w) : words (join " " ws) = ws :=
  (hasWords_iff.mp (hasWords_join h)).symm

/-! ## White space in a join -/

/-- White space stands between other characters only, and never two characters of it together. -/
structure IsTidy (s : String) : Prop where
  head : ∀ c, s.toList.head? = some c → isBlank c = false
  last : ∀ c, s.toList.getLast? = some c → isBlank c = false
  apart : s.toList.IsChain fun c d => isBlank c = false ∨ isBlank d = false

theorem IsWord.isTidy {w : String} (h : IsWord w) : IsTidy w where
  head c hc := h.plain c (List.mem_of_head? hc)
  last c hc := h.plain c (List.mem_of_getLast? hc)
  apart := by
    rw [List.isChain_iff_getElem]
    intro i hi
    exact .inl (h.plain _ (List.getElem_mem _))

theorem IsWord.isTidy_append {w s : String} (hw : IsWord w) (hs : IsTidy s) (hne : s.toList ≠ []) :
    IsTidy (w ++ " " ++ s) := by
  obtain ⟨a, ha, haPlain⟩ := hw.exists_head?
  have hb := List.getLast?_eq_some_getLast hne
  constructor
  · intro c hc
    rw [head?_append_of_eq (head?_append_of_eq ha _)] at hc
    cases hc
    exact haPlain
  · intro c hc
    rw [getLast?_append_of_eq _ hb] at hc
    cases hc
    exact hs.last _ hb
  · rw [String.toList_append, String.toList_append, List.append_assoc, List.isChain_append]
    refine ⟨hw.isTidy.apart, List.isChain_cons.mpr ⟨?_, hs.apart⟩, ?_⟩
    · intro d hd
      exact .inr (hs.head d hd)
    · intro c hc d _
      exact .inl (hw.plain c (List.mem_of_getLast? hc))

theorem isTidy_join {ws : List String} (h : ∀ w ∈ ws, IsWord w) : IsTidy (join " " ws) := by
  induction ws with
  | nil => exact ⟨by simp, by simp, by simp⟩
  | cons w ws ih =>
    obtain ⟨hw, hws⟩ := List.forall_mem_cons.mp h
    cases ws with
    | nil => exact hw.isTidy
    | cons v ws =>
      obtain ⟨c, hc, -⟩ := (hws v List.mem_cons_self).exists_head?
      have hne : (join " " (v :: ws)).toList ≠ [] := by
        intro hNil
        have hHead : (join " " (v :: ws)).toList.head? = some c := head?_join hc
        rw [hNil] at hHead
        cases hHead
      exact hw.isTidy_append (ih hws) hne

end SeedScript.Text
