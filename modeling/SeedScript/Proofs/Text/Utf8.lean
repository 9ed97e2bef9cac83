import SeedScript.Text.Lines
import SeedScript.Text.Utf8

/-!
# Reading encoded texts

Every text is read back from its bytes. A character of several bytes is read from its lead, which fixes
the bounds of the second byte, and the tails that follow it; each step of the reader is one lemma.
-/

namespace SeedScript.Text

namespace Utf8

theorem decodeFrom_single {n : Nat} (h : n < 0x80) (pos : Nat) (bs : List UInt8) :
    decodeFrom pos none (UInt8.ofNat n :: bs) =
      (decodeFrom (pos + 1) none bs).map (Char.ofNat n :: ·) := by
  rw [decodeFrom, UInt8.toNat_ofNat_of_lt' (by omega : n < 256), if_pos h]

theorem decodeFrom_lead {pos n : Nat} {p : Partial} (hLead : 0x80 ≤ n) (hByte : n < 256)
    (h : Partial.ofLead? pos (UInt8.ofNat n) = some p) (bs : List UInt8) :
    decodeFrom pos none (UInt8.ofNat n :: bs) = decodeFrom (pos + 1) (some p) bs := by
  rw [decodeFrom, UInt8.toNat_ofNat_of_lt' hByte, if_neg (Nat.not_lt.mpr hLead)]
  simp only [h]

theorem decodeFrom_tail {p : Partial} {t : Nat} (hLow : p.low ≤ t) (hHigh : t ≤ p.high)
    (hByte : t < 256) (hTails : 1 < p.tails) (pos : Nat) (bs : List UInt8) :
    decodeFrom pos (some p) (UInt8.ofNat t :: bs) =
      decodeFrom (pos + 1)
        (some ⟨p.start, p.lead, p.tails - 1, 0x80, 0xBF, 64 * p.code + (t - 0x80)⟩) bs := by
  rw [decodeFrom, UInt8.toNat_ofNat_of_lt' hByte, if_pos ⟨hLow, hHigh⟩]
  exact if_neg (Nat.not_le.mpr hTails)

theorem decodeFrom_last {p : Partial} {t : Nat} (hLow : p.low ≤ t) (hHigh : t ≤ p.high)
    (hByte : t < 256) (hTails : p.tails ≤ 1) (pos : Nat) (bs : List UInt8) :
    decodeFrom pos (some p) (UInt8.ofNat t :: bs) =
      (decodeFrom (pos + 1) none bs).map (Char.ofNat (64 * p.code + (t - 0x80)) :: ·) := by
  rw [decodeFrom, UInt8.toNat_ofNat_of_lt' hByte, if_pos ⟨hLow, hHigh⟩]
  exact if_pos hTails

theorem ofLead?_two {n : Nat} (hLow : 0xC2 ≤ n) (hHigh : n ≤ 0xDF) (pos : Nat) :
    Partial.ofLead? pos (UInt8.ofNat n) = some ⟨pos, UInt8.ofNat n, 1, 0x80, 0xBF, n - 0xC0⟩ := by
  simp only [Partial.ofLead?, UInt8.toNat_ofNat_of_lt' (by omega : n < 256)]
  rw [if_pos ⟨hLow, hHigh⟩]

/-- Of three bytes, the second is bounded so that the character needs three and is no surrogate. -/
theorem ofLead?_three {n t : Nat} (hLow : 0xE0 ≤ n) (hHigh : n ≤ 0xEF) (ht : 0x80 ≤ t ∧ t ≤ 0xBF)
    (hShort : n = 0xE0 → 0xA0 ≤ t) (hSurrogate : n = 0xED → t ≤ 0x9F) (pos : Nat) :
    ∃ low high, Partial.ofLead? pos (UInt8.ofNat n) =
      some ⟨pos, UInt8.ofNat n, 2, low, high, n - 0xE0⟩ ∧ low ≤ t ∧ t ≤ high := by
  simp only [Partial.ofLead?, UInt8.toNat_ofNat_of_lt' (by omega : n < 256)]
  rw [if_neg (by omega)]
  by_cases hFirst : n = 0xE0
  · rw [if_pos hFirst, hFirst]
    exact ⟨_, _, rfl, hShort hFirst, ht.2⟩
  · rw [if_neg hFirst]
    by_cases hLast : n = 0xED
    · rw [if_pos hLast, hLast]
      exact ⟨_, _, rfl, ht.1, hSurrogate hLast⟩
    · rw [if_neg hLast, if_pos (by omega)]
      exact ⟨_, _, rfl, ht⟩

/-- Of four bytes, the second is bounded so that the character needs four and is in range. -/
theorem ofLead?_four {n t : Nat} (hLow : 0xF0 ≤ n) (hHigh : n ≤ 0xF4) (ht : 0x80 ≤ t ∧ t ≤ 0xBF)
    (hShort : n = 0xF0 → 0x90 ≤ t) (hRange : n = 0xF4 → t ≤ 0x8F) (pos : Nat) :
    ∃ low high, Partial.ofLead? pos (UInt8.ofNat n) =
      some ⟨pos, UInt8.ofNat n, 3, low, high, n - 0xF0⟩ ∧ low ≤ t ∧ t ≤ high := by
  simp only [Partial.ofLead?, UInt8.toNat_ofNat_of_lt' (by omega : n < 256)]
  rw [if_neg (by omega), if_neg (by omega), if_neg (by omega), if_neg (by omega)]
  by_cases hFirst : n = 0xF0
  · rw [if_pos hFirst, hFirst]
    exact ⟨_, _, rfl, hShort hFirst, ht.2⟩
  · rw [if_neg hFirst]
    by_cases hLast : n = 0xF4
    · rw [if_neg (by omega), if_pos hLast, hLast]
      exact ⟨_, _, rfl, ht.1, hRange hLast⟩
    · rw [if_pos (by omega)]
      exact ⟨_, _, rfl, ht⟩

/-- The bytes of a character are read as that character. -/
theorem decodeFrom_encodeChar (c : Char) (pos : Nat) (bs : List UInt8) :
    ∃ next, decodeFrom pos none (String.utf8EncodeChar c ++ bs) =
      (decodeFrom next none bs).map (c :: ·) := by
  have hValid : c.val.toNat < 55296 ∨ 57343 < c.val.toNat ∧ c.val.toNat < 1114112 := c.valid
  have hChar : Char.ofNat c.val.toNat = c := Char.ofNat_toNat c
  rw [String.utf8EncodeChar]
  generalize c.val.toNat = v at hValid hChar
  subst hChar
  by_cases hOne : v ≤ 0x7F
  · simp only [if_pos hOne]
    exact ⟨_, decodeFrom_single (by omega) pos bs⟩
  by_cases hTwo : v ≤ 0x7FF
  · simp only [if_neg hOne, if_pos hTwo, List.cons_append, List.nil_append]
    rw [decodeFrom_lead (by omega) (by omega) (ofLead?_two (by omega) (by omega) pos),
      decodeFrom_last (by simp) (by simp; omega) (by omega) (by simp)]
    have hv : 64 * (v / 64 % 32 + 192 - 0xC0) + (v % 64 + 128 - 0x80) = v := by omega
    exact ⟨_, by rw [hv]⟩
  by_cases hThree : v ≤ 0xFFFF
  · simp only [if_neg hOne, if_neg hTwo, if_pos hThree, List.cons_append, List.nil_append]
    obtain ⟨low, high, hLead, hLow, hHigh⟩ :=
      ofLead?_three (n := v / 4096 % 16 + 224) (t := v / 64 % 64 + 128) (by omega) (by omega)
        (by omega) (by omega) (by omega) pos
    rw [decodeFrom_lead (by omega) (by omega) hLead,
      decodeFrom_tail hLow hHigh (by omega) (by simp),
      decodeFrom_last (by simp) (by simp; omega) (by omega) (by simp)]
    have hv : 64 * (64 * (v / 4096 % 16 + 224 - 0xE0) + (v / 64 % 64 + 128 - 0x80)) +
        (v % 64 + 128 - 0x80) = v := by omega
    exact ⟨_, by rw [hv]⟩
  · simp only [if_neg hOne, if_neg hTwo, if_neg hThree, List.cons_append, List.nil_append]
    obtain ⟨low, high, hLead, hLow, hHigh⟩ :=
      ofLead?_four (n := v / 262144 % 8 + 240) (t := v / 4096 % 64 + 128) (by omega) (by omega)
        (by omega) (by omega) (by omega) pos
    rw [decodeFrom_lead (by omega) (by omega) hLead,
      decodeFrom_tail hLow hHigh (by omega) (by simp),
      decodeFrom_tail (by simp) (by simp; omega) (by omega) (by simp),
      decodeFrom_last (by simp) (by simp; omega) (by omega) (by simp)]
    have hv : 64 * (64 * (64 * (v / 262144 % 8 + 240 - 0xF0) + (v / 4096 % 64 + 128 - 0x80)) +
        (v / 64 % 64 + 128 - 0x80)) + (v % 64 + 128 - 0x80) = v := by omega
    exact ⟨_, by rw [hv]⟩

theorem decodeFrom_encodeChars (cs : List Char) (pos : Nat) :
    decodeFrom pos none (encodeChars cs) = .ok cs := by
  induction cs generalizing pos with
  | nil => rfl
  | cons c cs ih =>
    obtain ⟨next, hChar⟩ := decodeFrom_encodeChar c pos (encodeChars cs)
    rw [encodeChars, List.flatMap_cons, ← encodeChars, hChar, ih]
    rfl

theorem decode_encode (s : String) : decode (encode s) = .ok s.toList :=
  decodeFrom_encodeChars s.toList 0

theorem encode_injective {s t : String} (h : encode s = encode t) : s = t := by
  have hDecode := decode_encode s
  rw [h, decode_encode] at hDecode
  exact (String.toList_inj.mp (Except.ok.inj hDecode)).symm

end Utf8

theorem unifyLineEnds_of_not_mem {cs : List Char} (h : '\r' ∉ cs) : unifyLineEnds cs = cs := by
  induction cs with
  | nil => rfl
  | cons c cs ih =>
    rw [List.mem_cons, not_or] at h
    have hc : c ≠ '\r' := Ne.symm h.1
    rw [unifyLineEnds, if_neg hc, ih h.2]
    rintro cs' rfl
    exact absurd rfl hc

end SeedScript.Text
