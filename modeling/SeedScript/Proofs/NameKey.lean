import SeedScript.Proofs.Text.Case
import SeedScript.Proofs.Text.Words
import SeedScript.Resolver

/-!
# Name keys

The key of a name is made of its words in one case. Case folding leaves white space alone and gives none,
so it makes words of words, and the words of a key are the folded words of the name. Main statement: two
names have one key exactly if their folded words are the same, a key is its own key, and there is no white
space in it but one character between two words.
-/

namespace SeedScript

namespace Text

namespace CaseMap

variable {m : CaseMap} {c d : Char}

/-- Whether a map leaves white space alone, gives none, and gives something for every character. -/
def keepsWords (m : CaseMap) : Bool :=
  (m.moved ++ m.images).all (fun n => !isBlank (Char.ofNat n)) && m.expansions.all (!·.2.isEmpty)

theorem onChar_of_isBlank (hKeeps : m.keepsWords = true) (hc : isBlank c = true) :
    m.onChar c = [c] := by
  simp only [keepsWords, Bool.and_eq_true, List.all_eq_true] at hKeeps
  apply onChar_of_not_mem_moved
  intro hMoved
  have hPlain := hKeeps.1 _ (List.mem_append_left _ hMoved)
  rw [Char.ofNat_toNat, hc] at hPlain
  cases hPlain

theorem isBlank_of_mem_onChar (hKeeps : m.keepsWords = true) (hc : isBlank c = false)
    (hd : d ∈ m.onChar c) : isBlank d = false := by
  simp only [keepsWords, Bool.and_eq_true, List.all_eq_true] at hKeeps
  rcases mem_onChar hd with hSame | ⟨n, hn, rfl⟩
  · rw [hSame] at hd
    rwa [List.mem_singleton.mp hd]
  · simpa using hKeeps.1 n (List.mem_append_right _ hn)

theorem onChar_ne_nil (hKeeps : m.keepsWords = true) (c : Char) : m.onChar c ≠ [] := by
  simp only [keepsWords, Bool.and_eq_true, List.all_eq_true] at hKeeps
  rcases m.onChar_cases c with ⟨r, -, -, hRun⟩ | ⟨image, hMem, hEntry⟩ | hSame
  · rw [hRun]
    exact List.cons_ne_nil _ _
  · rw [hEntry]
    simpa using hKeeps.2 _ hMem
  · rw [hSame]
    exact List.cons_ne_nil _ _

theorem apply_append (m : CaseMap) (s t : String) : m.apply (s ++ t) = m.apply s ++ m.apply t := by
  rw [apply, String.toList_append, List.flatMap_append, String.ofList_append, apply, apply]

theorem apply_join (hKeeps : m.keepsWords = true) (ws : List String) :
    m.apply (join " " ws) = join " " (ws.map m.apply) := by
  have hSpace : m.onChar ' ' = [' '] := onChar_of_isBlank hKeeps (by decide)
  have hSeparator : m.apply " " = " " := by
    simp [apply, hSpace]
  induction ws with
  | nil => rfl
  | cons w ws ih =>
    cases ws with
    | nil => rfl
    | cons v ws =>
      rw [join_cons_cons, apply_append, apply_append, hSeparator, ih]
      rfl

theorem isWord_apply (hKeeps : m.keepsWords = true) {w : String} (hw : IsWord w) :
    IsWord (m.apply w) := by
  constructor
  · rw [apply, String.toList_ofList]
    obtain ⟨c, cs, hcs⟩ := List.exists_cons_of_ne_nil hw.ne_nil
    rw [hcs, List.flatMap_cons]
    exact List.append_ne_nil_of_left_ne_nil (onChar_ne_nil hKeeps c) _
  · intro d hd
    rw [apply, String.toList_ofList] at hd
    obtain ⟨c, hc, hd⟩ := List.mem_flatMap.mp hd
    exact isBlank_of_mem_onChar hKeeps (hw.plain c hc) hd

end CaseMap

theorem isStable_caseFolding : caseFolding.isStable = true := by decide +kernel

theorem keepsWords_caseFolding : caseFolding.keepsWords = true := by decide +kernel

theorem caseFold_caseFold (s : String) : caseFold (caseFold s) = caseFold s :=
  CaseMap.apply_apply isStable_caseFolding s

end Text

theorem nameKey_eq_join (s : String) : nameKey s = Text.join " " ((Text.words s).map Text.caseFold) :=
  Text.CaseMap.apply_join Text.keepsWords_caseFolding _

theorem isWord_of_mem_folded {s w : String} (h : w ∈ (Text.words s).map Text.caseFold) :
    Text.IsWord w := by
  obtain ⟨v, hv, rfl⟩ := List.mem_map.mp h
  exact Text.CaseMap.isWord_apply Text.keepsWords_caseFolding (Text.isWord_of_mem_words hv)

/-- The words of a key are the folded words of the name. -/
theorem words_nameKey (s : String) : Text.words (nameKey s) = (Text.words s).map Text.caseFold := by
  rw [nameKey_eq_join, Text.words_join fun w => isWord_of_mem_folded]

theorem nameKey_nameKey (s : String) : nameKey (nameKey s) = nameKey s := by
  have hFolded : ((Text.words s).map Text.caseFold).map Text.caseFold =
      (Text.words s).map Text.caseFold := by
    rw [List.map_map]
    exact List.map_congr_left fun w _ => Text.caseFold_caseFold w
  rw [nameKey_eq_join (nameKey s), words_nameKey, hFolded, nameKey_eq_join]

/-- Two names have one key exactly if they have the same words but for case. -/
theorem nameKey_normalizes (s t : String) :
    (∀ ws, Text.HasWords s ws ↔ ws = Text.words s) ∧
      (nameKey s = nameKey t ↔
        (Text.words s).map Text.caseFold = (Text.words t).map Text.caseFold) ∧
      nameKey (nameKey s) = nameKey s ∧ Text.IsTidy (nameKey s) := by
  refine ⟨fun ws => Text.hasWords_iff, ?_, nameKey_nameKey s, ?_⟩
  · constructor
    · intro h
      rw [← words_nameKey, ← words_nameKey, h]
    · intro h
      rw [nameKey_eq_join, nameKey_eq_join, h]
  · rw [nameKey_eq_join]
    exact Text.isTidy_join fun w => isWord_of_mem_folded

/-- Folding can lengthen a word, and any white space parts words. -/
example : nameKey "\u00a0STRASSE  nord\n" = nameKey "Straße Nord" := by decide +kernel

end SeedScript
