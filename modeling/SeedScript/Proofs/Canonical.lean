import Mathlib.Data.List.Forall2
import Mathlib.Data.Nat.Digits.Defs
import SeedScript.Proofs.Identifier

/-!
# Canonical texts

A text is canonical when it consists of five groups of hexadecimal digits with hyphens between them, in
either case. The reader of identifiers takes more forms, and then compares what it has read with the lower
case of the text. Main statement: what passes the comparison is exactly a canonical text with white space
around it, and it is read as the number that its digits spell.
-/

namespace SeedScript

namespace Text

theorem toNat_hexDigit {d : Nat} (h : d < 16) :
    (hexDigit d).toNat = if d < 10 then d + 48 else d + 87 := by
  have hAll : ∀ d < 16, (hexDigit d).toNat = if d < 10 then d + 48 else d + 87 := by decide
  exact hAll d h

theorem toNat_toLower (c : Char) :
    c.toLower.toNat = if 65 ≤ c.toNat ∧ c.toNat ≤ 90 then c.toNat + 32 else c.toNat := by
  have hUpper : (c.val ≥ 'A'.val ∧ c.val ≤ 'Z'.val) ↔ 65 ≤ c.toNat ∧ c.toNat ≤ 90 := Iff.rfl
  unfold Char.toLower
  by_cases h : 65 ≤ c.toNat ∧ c.toNat ≤ 90
  · rw [dif_pos (hUpper.mpr h), if_pos h]
    change (c.val + 32).toNat = c.toNat + 32
    have hLt : c.val.toNat + 32 < 2 ^ 32 := by
      have hNat : c.val.toNat = c.toNat := rfl
      omega
    rw [UInt32.toNat_add, UInt32.toNat_ofNat, Nat.mod_eq_of_lt hLt]
    rfl
  · rw [dif_neg (mt hUpper.mp h), if_neg h]

theorem groupedDigits?_of_forall₂ {value? : Char → Option Nat} (hUnderscore : value? '_' = none)
    {cs : List Char} {ds : List Nat} (h : List.Forall₂ (fun c d => value? c = some d) cs ds)
    (hne : cs ≠ []) : groupedDigits? value? cs = some ds := by
  induction h with
  | nil => exact absurd rfl hne
  | @cons c d cs ds hd hds ih =>
    cases hds with
    | nil => simp [groupedDigits?, hd]
    | @cons c' d' cs ds hd' hds =>
      have hc' : c' ≠ '_' := by
        rintro rfl
        rw [hUnderscore] at hd'
        cases hd'
      rw [groupedDigits?, hd, ih (List.cons_ne_nil _ _)]
      · rfl
      · simp
      · simpa using hc'

end Text

namespace Identifier

theorem hexValue?_eq_some_iff {c : Char} {d : Nat} : hexValue? c = some d ↔
    (48 ≤ c.toNat ∧ c.toNat ≤ 57 ∧ d + 48 = c.toNat) ∨
      (97 ≤ c.toNat ∧ c.toNat ≤ 102 ∧ d + 87 = c.toNat) ∨
        65 ≤ c.toNat ∧ c.toNat ≤ 70 ∧ d + 55 = c.toNat := by
  have hDigit : ('0' ≤ c ∧ c ≤ '9') ↔ 48 ≤ c.toNat ∧ c.toNat ≤ 57 := Iff.rfl
  have hLower : ('a' ≤ c ∧ c ≤ 'f') ↔ 97 ≤ c.toNat ∧ c.toNat ≤ 102 := Iff.rfl
  have hUpper : ('A' ≤ c ∧ c ≤ 'F') ↔ 65 ≤ c.toNat ∧ c.toNat ≤ 70 := Iff.rfl
  simp only [hexValue?, hDigit, hLower, hUpper]
  split
  · rw [Option.some_inj]
    omega
  · split
    · rw [Option.some_inj]
      omega
    · split
      · rw [Option.some_inj]
        omega
      · simp only [reduceCtorEq, false_iff]
        omega

theorem lt_of_hexValue? {c : Char} {d : Nat} (h : hexValue? c = some d) : d < 16 := by
  rw [hexValue?_eq_some_iff] at h
  omega

theorem isBlank_of_hexValue? {c : Char} {d : Nat} (h : hexValue? c = some d) : Text.isBlank c = false := by
  rw [hexValue?_eq_some_iff] at h
  simp only [Text.isBlank, Bool.or_eq_false_iff, Bool.and_eq_false_iff, decide_eq_false_iff_not,
    beq_eq_false_iff_ne]
  omega

/-- The characters whose lower case is a digit are the digits of either case. -/
theorem lowerChar_eq_hexDigit_iff {c : Char} {d : Nat} (hd : d < 16) :
    Text.lowerChar c = Text.hexDigit d ↔ hexValue? c = some d := by
  rw [hexValue?_eq_some_iff, ← Char.toNat_inj, Text.toNat_hexDigit hd, Text.lowerChar]
  by_cases hKelvin : c = '\u212A'
  · subst hKelvin
    have hSign : '\u212A'.toNat = 8490 := rfl
    have hLower : 'k'.toNat = 107 := rfl
    rw [if_pos rfl, hSign, hLower]
    split <;> omega
  · rw [if_neg hKelvin, Text.toNat_toLower]
    split <;> split <;> omega

theorem eq_hyphen_of_lowerChar {c : Char} (h : Text.lowerChar c = '-') : c = '-' := by
  rw [← Char.toNat_inj, Text.lowerChar] at h
  have hHyphen : '-'.toNat = 45 := rfl
  rw [← Char.toNat_inj]
  by_cases hKelvin : c = '\u212A'
  · rw [if_pos hKelvin] at h
    cases h
  · rw [if_neg hKelvin, Text.toNat_toLower] at h
    split at h <;> omega

/-! ## Numbers and their digits -/

theorem nibbles_spell {ds : List Nat} (h : ∀ d ∈ ds, d < 16) : nibbles ds.length (spell ds) = ds := by
  induction ds using List.reverseRecOn with
  | nil => rfl
  | append_singleton ds d ih =>
    have hd : d < 16 := h d (by simp)
    have hDigit : (16 * spell ds + d) % 16 = d := by omega
    have hRest : (16 * spell ds + d) / 16 = spell ds := by omega
    rw [List.length_append, List.length_singleton, nibbles, spell_append_singleton, hDigit, hRest,
      ih fun x hx => h x (List.mem_append_left _ hx)]

theorem spell_lt {ds : List Nat} (h : ∀ d ∈ ds, d < 16) : spell ds < Nat.pow 16 ds.length := by
  induction ds using List.reverseRecOn with
  | nil => decide
  | append_singleton ds d ih =>
    have hd : d < 16 := h d (by simp)
    have hSpell := ih fun x hx => h x (List.mem_append_left _ hx)
    have hPow : Nat.pow 16 (ds.length + 1) = Nat.pow 16 ds.length * 16 := rfl
    rw [List.length_append, List.length_singleton, spell_append_singleton, hPow]
    omega

theorem spell_eq_ofDigits (ds : List Nat) : spell ds = Nat.ofDigits 16 ds.reverse := by
  rw [Nat.ofDigits_eq_foldr, List.foldr_reverse, spell]
  congr
  funext n d
  rw [Nat.add_comm]
  rfl

/-! ## Groups of digits -/

/-- Characters with their values as digits to the base 16. -/
abbrev HaveValues : List Char → List Nat → Prop :=
  List.Forall₂ fun c d => hexValue? c = some d

/-- Five groups of characters with hyphens between them, and the characters of all groups. -/
inductive Grouped : List Char → List Char → Prop
  | intro {a b c d e : List Char} : a.length = 8 → b.length = 4 → c.length = 4 → d.length = 4 →
      e.length = 12 →
      Grouped (a ++ '-' :: (b ++ '-' :: (c ++ '-' :: (d ++ '-' :: e)))) (a ++ (b ++ (c ++ (d ++ e))))

/-- A canonical text in either case, and the number that its digits spell. -/
def Spells (cs : List Char) (n : Nat) : Prop :=
  ∃ digits values, Grouped cs digits ∧ HaveValues digits values ∧ n = Nat.ofDigits 16 values.reverse

theorem hyphenate_append {n m : Nat} {lengths : List Nat} {a : List Char} (ha : a.length = n)
    (cs : List Char) :
    hyphenate (n :: m :: lengths) (a ++ cs) = a ++ '-' :: hyphenate (m :: lengths) cs := by
  rw [hyphenate, List.take_left' ha, List.drop_left' ha]
  exact List.cons_ne_nil _ _

theorem hyphenate_singleton {n : Nat} {a : List Char} (ha : a.length = n) : hyphenate [n] a = a :=
  List.take_of_length_le (Nat.le_of_eq ha)

namespace Grouped

theorem length_eq {cs digits : List Char} (h : Grouped cs digits) : digits.length = 32 := by
  cases h
  simp only [List.length_append]
  omega

theorem eq_hyphenate {cs digits : List Char} (h : Grouped cs digits) : hyphenate groups digits = cs := by
  cases h with
  | intro ha hb hc hd he =>
    rw [groups, hyphenate_append ha, hyphenate_append hb, hyphenate_append hc, hyphenate_append hd,
      hyphenate_singleton he]

theorem of_length {digits : List Char} (h : digits.length = 32) :
    Grouped (hyphenate groups digits) digits := by
  have hSplit : ∀ (n : Nat) (cs : List Char), n ≤ cs.length →
      ∃ a rest, cs = a ++ rest ∧ a.length = n ∧ rest.length = cs.length - n := by
    intro n cs hn
    exact ⟨cs.take n, cs.drop n, (List.take_append_drop n cs).symm,
      List.length_take_of_le hn, List.length_drop⟩
  obtain ⟨a, cs, rfl, ha, hRest⟩ := hSplit 8 digits (by omega)
  obtain ⟨b, cs, rfl, hb, hRest⟩ := hSplit 4 cs (by omega)
  obtain ⟨c, cs, rfl, hc, hRest⟩ := hSplit 4 cs (by omega)
  obtain ⟨d, e, rfl, hd, he⟩ := hSplit 4 cs (by omega)
  have h : Grouped _ (a ++ (b ++ (c ++ (d ++ e)))) := .intro ha hb hc hd (by omega)
  rwa [← h.eq_hyphenate] at h

theorem map {f : Char → Char} (hHyphen : f '-' = '-') {cs digits : List Char} (h : Grouped cs digits) :
    Grouped (cs.map f) (digits.map f) := by
  cases h with
  | intro ha hb hc hd he =>
    simp only [List.map_append, List.map_cons, hHyphen]
    exact .intro (by simpa) (by simpa) (by simpa) (by simpa) (by simpa)

theorem exists_of_map_eq {f : Char → Char} (hHyphen : ∀ c, f c = '-' → c = '-')
    {cs group rest : List Char} (h : cs.map f = group ++ '-' :: rest) :
    ∃ a bs, cs = a ++ '-' :: bs ∧ a.map f = group ∧ bs.map f = rest := by
  obtain ⟨a, _, rfl, ha, hRest⟩ := List.map_eq_append_iff.mp h
  obtain ⟨c, bs, rfl, hc, hbs⟩ := List.map_eq_cons_iff.mp hRest
  rw [hHyphen c hc]
  exact ⟨a, bs, rfl, ha, hbs⟩

/-- Groups are found where their images are, if nothing but a hyphen becomes one. -/
theorem of_map {f : Char → Char} (hHyphen : ∀ c, f c = '-' → c = '-') {cs images : List Char}
    (h : Grouped (cs.map f) images) : ∃ digits, Grouped cs digits ∧ digits.map f = images := by
  generalize hText : cs.map f = text at h
  cases h with
  | intro ha hb hc hd he =>
    obtain ⟨a, cs₁, rfl, rfl, h₁⟩ := exists_of_map_eq hHyphen hText
    obtain ⟨b, cs₂, rfl, rfl, h₂⟩ := exists_of_map_eq hHyphen h₁
    obtain ⟨c, cs₃, rfl, rfl, h₃⟩ := exists_of_map_eq hHyphen h₂
    obtain ⟨d, e, rfl, rfl, rfl⟩ := exists_of_map_eq hHyphen h₃
    rw [List.length_map] at ha hb hc hd he
    exact ⟨_, .intro ha hb hc hd he, by simp only [List.map_append]⟩

theorem filter_eq {cs digits : List Char} (h : Grouped cs digits) (hHyphen : '-' ∉ digits) :
    cs.filter (· ≠ '-') = digits := by
  have hStay : ∀ xs : List Char, '-' ∉ xs → xs.filter (· ≠ '-') = xs := by
    intro xs hxs
    exact List.filter_eq_self.mpr fun x hx => decide_eq_true fun hEq => hxs (hEq ▸ hx)
  cases h with
  | intro =>
    simp only [List.mem_append, not_or] at hHyphen
    obtain ⟨ha, hb, hc, hd, he⟩ := hHyphen
    have hDrop : ∀ xs : List Char, ('-' :: xs).filter (· ≠ '-') = xs.filter (· ≠ '-') := fun xs => by simp
    simp only [List.filter_append, hDrop, hStay _ ha, hStay _ hb, hStay _ hc, hStay _ hd, hStay _ he]

end Grouped

namespace HaveValues

theorem lt {cs : List Char} {ds : List Nat} (h : HaveValues cs ds) : ∀ d ∈ ds, d < 16 := by
  induction h with
  | nil => exact fun _ hd => nomatch hd
  | cons hd _ ih => exact List.forall_mem_cons.mpr ⟨lt_of_hexValue? hd, ih⟩

theorem map_lowerChar {cs : List Char} {ds : List Nat} (h : HaveValues cs ds) :
    cs.map Text.lowerChar = ds.map Text.hexDigit := by
  induction h with
  | nil => rfl
  | cons hd _ ih =>
    rw [List.map_cons, List.map_cons, ih, (lowerChar_eq_hexDigit_iff (lt_of_hexValue? hd)).mpr hd]

theorem of_map_lowerChar {cs : List Char} {ds : List Nat} (hLt : ∀ d ∈ ds, d < 16)
    (h : cs.map Text.lowerChar = ds.map Text.hexDigit) : HaveValues cs ds := by
  induction ds generalizing cs with
  | nil =>
    rw [List.map_nil, List.map_eq_nil_iff] at h
    rw [h]
    exact .nil
  | cons d ds ih =>
    obtain ⟨c, cs, rfl, hc, hcs⟩ := List.map_eq_cons_iff.mp h
    obtain ⟨hd, hds⟩ := List.forall_mem_cons.mp hLt
    exact .cons ((lowerChar_eq_hexDigit_iff hd).mp hc) (ih hds hcs)

theorem exists_of_mem {cs : List Char} {ds : List Nat} (h : HaveValues cs ds) {c : Char} (hc : c ∈ cs) :
    ∃ d, hexValue? c = some d := by
  induction h with
  | nil => cases hc
  | cons hd _ ih =>
    rcases List.mem_cons.mp hc with rfl | hc
    · exact ⟨_, hd⟩
    · exact ih hc

theorem not_mem {cs : List Char} {ds : List Nat} (h : HaveValues cs ds) {c : Char}
    (hc : hexValue? c = none) : c ∉ cs := by
  intro hMem
  obtain ⟨d, hd⟩ := h.exists_of_mem hMem
  rw [hc] at hd
  cases hd

end HaveValues

theorem Grouped.not_mem {cs digits : List Char} {values : List Nat} (h : Grouped cs digits)
    (hValues : HaveValues digits values) {c : Char} (hHyphen : c ≠ '-') (hNone : hexValue? c = none) :
    c ∉ cs := by
  intro hMem
  rw [← h.eq_hyphenate] at hMem
  exact (eq_or_mem_of_mem_hyphenate hMem).elim hHyphen (hValues.not_mem hNone)

/-! ## The comparison -/

theorem toList_text (i : Identifier) :
    i.text.toList = hyphenate groups ((nibbles 32 i.number).map Text.hexDigit) := by
  rw [text, String.toList_ofList, hexDigits_eq_map]

/-- The lower case of a text is the text of an identifier exactly if the text is canonical. -/
theorem text_eq_lowerCase_iff {i : Identifier} {s : String} :
    i.text = Text.lowerCase s ↔ Spells s.toList i.number := by
  rw [← String.toList_inj, toList_text, Text.lowerCase, String.toList_ofList]
  have hLt : ∀ d ∈ nibbles 32 i.number, d < 16 := fun d hd => lt_of_mem_nibbles hd
  constructor
  · intro h
    have hImages : Grouped (s.toList.map Text.lowerChar) ((nibbles 32 i.number).map Text.hexDigit) := by
      rw [← h]
      exact .of_length (by rw [List.length_map, length_nibbles])
    obtain ⟨digits, hGrouped, hDigits⟩ := hImages.of_map fun c => eq_hyphen_of_lowerChar
    refine ⟨digits, _, hGrouped, .of_map_lowerChar hLt hDigits, ?_⟩
    rw [← spell_eq_ofDigits, spell_nibbles i.lt]
  · rintro ⟨digits, values, hGrouped, hValues, hNumber⟩
    have hLength : values.length = 32 := hValues.length_eq.symm.trans hGrouped.length_eq
    have hNibbles : nibbles 32 i.number = values := by
      rw [hNumber, ← spell_eq_ofDigits, ← hLength, nibbles_spell hValues.lt]
    rw [hNibbles, ← hValues.map_lowerChar]
    exact (hGrouped.map (by decide)).eq_hyphenate

/-! ## Reading -/

theorem number?_of_haveValues {cs : List Char} {ds : List Nat} (h : HaveValues cs ds) (hne : cs ≠ []) :
    number? cs = some (spell ds) := by
  have hTrim : Text.trimList Text.isPadding cs = cs := by
    have hNot : ∀ c ∈ cs, Text.isPadding c = false := by
      intro c hc
      obtain ⟨d, hd⟩ := h.exists_of_mem hc
      rw [Text.isPadding, isBlank_of_hexValue? hd, Bool.false_and]
    exact Text.trimList_eq_self (fun c hc => hNot c (List.mem_of_mem_head? hc))
      fun c hc => hNot c (List.mem_of_getLast? hc)
  have hPlus : dropPlus cs = cs := by
    unfold dropPlus
    split
    · exact absurd List.mem_cons_self (h.not_mem (c := '+') (by decide))
    · rfl
  have hMark : dropBaseMark cs = cs := by
    unfold dropBaseMark
    split
    · next zero x cs =>
      have hx : x ∈ zero :: x :: cs := by simp
      have hSmall : x ≠ 'x' := fun hEq => h.not_mem (c := 'x') (by decide) (hEq ▸ hx)
      have hLarge : x ≠ 'X' := fun hEq => h.not_mem (c := 'X') (by decide) (hEq ▸ hx)
      simp [hSmall, hLarge]
    · rfl
  have hAny : List.Forall₂ (fun c d => anyHexValue? c = some d) cs ds :=
    h.imp fun c d hd => by rw [anyHexValue?, hd]
  rw [number?, hTrim, hPlus, hMark, Text.groupedDigits?_of_forall₂ (by decide) hAny hne, Option.map_some]

/-- In a canonical text there is nothing to leave out but the hyphens. -/
theorem unwrap_of_grouped {cs digits : List Char} {values : List Nat} (hGrouped : Grouped cs digits)
    (hValues : HaveValues digits values) : unwrap cs = digits := by
  have hColon : ':' ∉ cs := hGrouped.not_mem hValues (by decide) (by decide)
  have hBrace : ∀ c ∈ cs, isBrace c = false := by
    intro c hc
    have hOpen : c ≠ '{' := fun hEq => hGrouped.not_mem hValues (c := '{') (by decide) (by decide) (hEq ▸ hc)
    have hClose : c ≠ '}' := fun hEq => hGrouped.not_mem hValues (c := '}') (by decide) (by decide) (hEq ▸ hc)
    simp [isBrace, hOpen, hClose]
  have hTrim : Text.trimList isBrace cs = cs :=
    Text.trimList_eq_self (fun c hc => hBrace c (List.mem_of_mem_head? hc))
      fun c hc => hBrace c (List.mem_of_getLast? hc)
  have hFirst : Text.remove ['u', 'r', 'n', ':'] cs = cs := Text.remove_of_not_mem (by decide) hColon
  have hSecond : Text.remove ['u', 'u', 'i', 'd', ':'] cs = cs := Text.remove_of_not_mem (by decide) hColon
  unfold unwrap
  simp only [hFirst, hSecond, hTrim]
  exact hGrouped.filter_eq (hValues.not_mem (by decide))

theorem ofAnyForm?_of_spells {cs : List Char} {i : Identifier} (h : Spells cs i.number) :
    ofAnyForm? cs = some i := by
  obtain ⟨digits, values, hGrouped, hValues, hNumber⟩ := h
  have hne : digits ≠ [] := List.ne_nil_of_length_pos (by rw [hGrouped.length_eq]; decide)
  rw [ofAnyForm?, unwrap_of_grouped hGrouped hValues, if_pos hGrouped.length_eq,
    number?_of_haveValues hValues hne]
  have hSpell : spell values = i.number := by rw [hNumber, spell_eq_ofDigits]
  simp only [hSpell, i.lt, dif_pos]

theorem lt_of_spells {cs : List Char} {n : Nat} (h : Spells cs n) : n < identifierCount := by
  obtain ⟨digits, values, hGrouped, hValues, rfl⟩ := h
  have hLength : values.length = 32 := hValues.length_eq.symm.trans hGrouped.length_eq
  have hLt := spell_lt hValues.lt
  rwa [hLength, spell_eq_ofDigits] at hLt

theorem parse?_eq_some_iff {s : String} {i : Identifier} :
    parse? s = some i ↔ Spells (Text.strip s).toList i.number := by
  rw [parse?]
  constructor
  · intro h
    split at h
    · cases h
    · split at h
      · next hText =>
        cases h
        exact text_eq_lowerCase_iff.mp hText
      · cases h
  · intro h
    simp only [ofAnyForm?_of_spells h, text_eq_lowerCase_iff.mpr h, if_true]

theorem spells_text (i : Identifier) : Spells i.text.toList i.number := by
  rw [toList_text]
  refine ⟨_, nibbles 32 i.number, .of_length (by rw [List.length_map, length_nibbles]), ?_, ?_⟩
  · rw [HaveValues, List.forall₂_map_left_iff, List.forall₂_same]
    exact fun d hd => hexValue?_hexDigit (lt_of_mem_nibbles hd)
  · rw [← spell_eq_ofDigits, spell_nibbles i.lt]

theorem parse?_text (i : Identifier) : parse? i.text = some i := by
  have hStrip : (Text.strip i.text).toList = i.text.toList := by
    rw [Text.strip, String.toList_ofList]
    exact Text.trimList_eq_self (fun c hc => isBlank_of_mem_text (List.mem_of_mem_head? hc))
      fun c hc => isBlank_of_mem_text (List.mem_of_getLast? hc)
  rw [parse?_eq_some_iff, hStrip]
  exact spells_text i

/-- White space alone is no identifier. -/
theorem isBlankText_of_parse? {s : String} {i : Identifier} (h : parse? s = some i) :
    Text.isBlankText s = false := by
  by_contra hBlank
  rw [Bool.not_eq_false, Text.isBlankText, List.all_eq_true] at hBlank
  have hStrip : Text.strip s = "" := by
    have hNone := Text.trimList_append_left hBlank []
    rw [List.append_nil] at hNone
    rw [Text.strip, hNone]
    rfl
  rw [parse?, hStrip] at h
  cases h

/-- Texts are read as identifiers exactly if they are canonical, apart from white space around them. What
is read is the number that the digits spell, and its text is the lower case of what was read. -/
theorem parse?_reads :
    (∀ (s : String) (i : Identifier), parse? s = some i ↔ Spells (Text.strip s).toList i.number) ∧
    (∀ s : String, parse? s = none ↔ ¬ ∃ n, Spells (Text.strip s).toList n) ∧
    (∀ (s : String) (i : Identifier), parse? s = some i →
      i.text.toList = (Text.strip s).toList.map Char.toLower) ∧
    ∀ i : Identifier, parse? i.text = some i := by
  refine ⟨fun s i => parse?_eq_some_iff, ?_, ?_, parse?_text⟩
  · intro s
    rw [Option.eq_none_iff_forall_ne_some, not_exists]
    constructor
    · intro hNone n hSpells
      exact hNone ⟨n, lt_of_spells hSpells⟩ (parse?_eq_some_iff.mpr hSpells)
    · intro hNone i hParse
      exact hNone i.number (parse?_eq_some_iff.mp hParse)
  · intro s i hParse
    have hSpells := parse?_eq_some_iff.mp hParse
    rw [text_eq_lowerCase_iff.mpr hSpells, Text.lowerCase, String.toList_ofList]
    obtain ⟨digits, values, hGrouped, hValues, -⟩ := hSpells
    refine List.map_congr_left fun c hc => ?_
    have hKelvin : c ≠ '\u212A' := by
      rintro rfl
      exact hGrouped.not_mem hValues (by decide) (by decide) hc
    rw [Text.lowerChar, if_neg hKelvin]

/-- An ideographic space in front, letters of both cases, and an information separator behind. -/
theorem parse?_reads_mixed :
    parse? "\u30003B0e6c1e-1f6A-4d8e-9a51-0E3c2f1d7a11\x1f" =
        some (.ofNat 0x3b0e6c1e1f6a4d8e9a510e3c2f1d7a11) ∧
      (Identifier.ofNat 0x3b0e6c1e1f6a4d8e9a510e3c2f1d7a11).text.toList =
        "3b0e6c1e-1f6a-4d8e-9a51-0e3c2f1d7a11".toList := by
  have hParse : parse? "\u30003B0e6c1e-1f6A-4d8e-9a51-0E3c2f1d7a11\x1f" =
      some (.ofNat 0x3b0e6c1e1f6a4d8e9a510e3c2f1d7a11) := by decide +kernel
  have hLower := parse?_reads.2.2.1 _ _ hParse
  exact ⟨hParse, hLower.trans (by decide +kernel)⟩

/-- Other forms are read, and then refused. -/
example : ["{3b0e6c1e-1f6a-4d8e-9a51-0e3c2f1d7a11}", "urn:uuid:3b0e6c1e1f6a4d8e9a510e3c2f1d7a11",
    "+0x_0000000000000000000000000001"].map (fun s => ((ofAnyForm? s.toList).isSome, parse? s)) =
      [(true, none), (true, none), (true, none)] := by
  decide +kernel

end Identifier
end SeedScript
