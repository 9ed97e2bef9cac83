import Mathlib.Data.Nat.Bitwise
import SeedScript.Text.UpperCase

/-!
# Case maps that are done after one pass

A case map changes nothing the second time if it leaves every character alone that it gives. For a table
that is a matter of arithmetic: the characters that the map moves are the bits of one number, and none of
the bits of its images may be among them.
-/

namespace SeedScript.Text

namespace CaseRun

/-- The characters of a run, by their numbers. -/
def positions (r : CaseRun) : List Nat :=
  (List.range ((r.last - r.first) / r.stride + 1)).map fun i => r.first + i * r.stride

theorem mem_positions_of_covers {r : CaseRun} {n : Nat} (h : r.covers n = true) :
    n ∈ r.positions := by
  simp only [covers, Bool.and_eq_true, decide_eq_true_iff, beq_iff_eq] at h
  obtain ⟨⟨hFirst, hLast⟩, hStride⟩ := h
  have hSteps : (n - r.first) / r.stride * r.stride = n - r.first :=
    Nat.div_mul_cancel (Nat.dvd_of_mod_eq_zero hStride)
  have hBound : (n - r.first) / r.stride ≤ (r.last - r.first) / r.stride :=
    Nat.div_le_div_right (Nat.sub_le_sub_right hLast r.first)
  refine List.mem_map.mpr ⟨(n - r.first) / r.stride, ?_, ?_⟩
  · exact List.mem_range.mpr (Nat.lt_succ_of_le hBound)
  · rw [hSteps]
    exact Nat.add_sub_of_le hFirst

end CaseRun

namespace CaseMap

variable {m : CaseMap} {c d : Char}

/-- The characters that a map may change. -/
def moved (m : CaseMap) : List Nat :=
  m.runs.flatMap CaseRun.positions ++ m.expansions.map Prod.fst

/-- The characters that stand for those. -/
def images (m : CaseMap) : List Nat :=
  m.runs.flatMap (fun r => r.positions.map r.image) ++ m.expansions.flatMap Prod.snd

/-- A character falls under a run, has an entry of its own, or stays as it is. -/
theorem onChar_cases (m : CaseMap) (c : Char) :
    (∃ r ∈ m.runs, r.covers c.toNat = true ∧ m.onChar c = [Char.ofNat (r.image c.toNat)]) ∨
      (∃ image, (c.toNat, image) ∈ m.expansions ∧ m.onChar c = image.map Char.ofNat) ∨
      m.onChar c = [c] := by
  unfold onChar
  split
  · next r hFind =>
    have hCovers : r.covers c.toNat = true := by simpa using List.find?_some hFind
    exact .inl ⟨r, List.mem_of_find?_eq_some hFind, hCovers, rfl⟩
  · split
    · next image hLookup =>
      obtain ⟨before, after, hSplit, -⟩ := List.lookup_eq_some_iff.mp hLookup
      refine .inr (.inl ⟨image, ?_, rfl⟩)
      rw [hSplit]
      exact List.mem_append_right _ List.mem_cons_self
    · exact .inr (.inr rfl)

theorem onChar_of_not_mem_moved (h : c.toNat ∉ m.moved) : m.onChar c = [c] := by
  rw [moved, List.mem_append, not_or] at h
  rcases m.onChar_cases c with ⟨r, hr, hCovers, -⟩ | ⟨image, hMem, -⟩ | hSame
  · exact absurd (List.mem_flatMap.mpr ⟨r, hr, CaseRun.mem_positions_of_covers hCovers⟩) h.1
  · exact absurd (List.mem_map_of_mem hMem) h.2
  · exact hSame

theorem mem_onChar (h : d ∈ m.onChar c) : m.onChar c = [c] ∨ ∃ n ∈ m.images, d = Char.ofNat n := by
  rcases m.onChar_cases c with ⟨r, hr, hCovers, hRun⟩ | ⟨image, hMem, hEntry⟩ | hSame
  · rw [hRun] at h
    have hImage : r.image c.toNat ∈ r.positions.map r.image :=
      List.mem_map_of_mem (CaseRun.mem_positions_of_covers hCovers)
    refine .inr ⟨r.image c.toNat, List.mem_append_left _ ?_, List.mem_singleton.mp h⟩
    exact List.mem_flatMap.mpr ⟨r, hr, hImage⟩
  · rw [hEntry] at h
    obtain ⟨n, hn, rfl⟩ := List.mem_map.mp h
    exact .inr ⟨n, List.mem_append_right _ (List.mem_flatMap.mpr ⟨_, hMem, hn⟩), rfl⟩
  · exact .inl hSame

/-! ## Characters as bits -/

def bits : List Nat → Nat
  | [] => 0
  | n :: ns => 1 <<< n ||| bits ns

theorem testBit_bits_iff (ns : List Nat) (n : Nat) : (bits ns).testBit n = true ↔ n ∈ ns := by
  induction ns with
  | nil => simp [bits]
  | cons k ns ih =>
    rw [bits, Nat.testBit_or, Nat.one_shiftLeft, Nat.testBit_two_pow, Bool.or_eq_true,
      decide_eq_true_iff, ih, List.mem_cons, eq_comm]

/-- Whether a map moves none of the characters that it gives. -/
def isStable (m : CaseMap) : Bool :=
  m.images.all fun n => !(bits m.moved).testBit (Char.ofNat n).toNat

theorem onChar_of_isStable (hStable : m.isStable = true) (h : d ∈ m.onChar c) : m.onChar d = [d] := by
  rcases mem_onChar h with hSame | ⟨n, hn, rfl⟩
  · rw [hSame] at h
    rw [List.mem_singleton.mp h, hSame]
  · apply onChar_of_not_mem_moved
    intro hMoved
    have hBit := List.all_eq_true.mp hStable n hn
    rw [(testBit_bits_iff _ _).mpr hMoved] at hBit
    cases hBit

/-- A map that moves nothing of what it gives changes nothing the second time. -/
theorem apply_apply (hStable : m.isStable = true) (s : String) : m.apply (m.apply s) = m.apply s := by
  have hChars : ∀ cs : List Char, (∀ d ∈ cs, m.onChar d = [d]) → cs.flatMap m.onChar = cs := by
    intro cs h
    induction cs with
    | nil => rfl
    | cons c cs ih =>
      rw [List.forall_mem_cons] at h
      rw [List.flatMap_cons, h.1, ih h.2, List.singleton_append]
  unfold apply
  rw [String.toList_ofList, hChars]
  intro d hd
  obtain ⟨c, -, hc⟩ := List.mem_flatMap.mp hd
  exact onChar_of_isStable hStable hc

end CaseMap

theorem isStable_upperCasing : upperCasing.isStable = true := by decide +kernel

theorem upperCase_upperCase (s : String) : upperCase (upperCase s) = upperCase s :=
  CaseMap.apply_apply isStable_upperCasing s

end SeedScript.Text
