import SeedScript.Json.Reader
import Mathlib.Data.List.Infix
import Mathlib.Data.List.TakeWhile

/-!
# What the limits of the reader mean

A reader leaves an end of its input. It goes beyond a limit only on a text that goes beyond it: one with
more digits in a row than an integer may have, or with more brackets that open than there is room for.
-/

namespace SeedScript.Json

def opens (c : Char) : Bool :=
  c = '[' || c = '{'

/-- What a text holds on which a reader with so much room ends in an error. -/
def ReadError.Justified (room : Nat) (cs : List Char) : ReadError → Prop
  | malformed _ _ => True
  | integerTooLong n => digitLimit < n ∧
      ∃ digits, digits <:+: cs ∧ digits.length = n ∧ ∀ c ∈ digits, c.isDigit = true
  | nestingTooDeep _ => room < cs.countP opens

/-- A reading leaves an end of the text, or has an error that the text justifies. -/
def Explained {α : Type} (room : Nat) (cs : List Char) : Reading α → Prop
  | .ok (_, rest) => rest <:+ cs
  | .error e => e.Justified room cs

variable {α : Type} {room : Nat} {cs ds : List Char} {e : ReadError} {r : Reading α}

theorem ReadError.Justified.mono (h : e.Justified room cs) (hEnd : cs <:+ ds) :
    e.Justified room ds := by
  cases e with
  | malformed mistake rest => trivial
  | integerTooLong n =>
    obtain ⟨hLimit, digits, hDigits, hLength, hAll⟩ := h
    exact ⟨hLimit, digits, hDigits.trans hEnd.isInfix, hLength, hAll⟩
  | nestingTooDeep container => exact Nat.lt_of_lt_of_le h hEnd.sublist.countP_le

theorem ReadError.Justified.behind {c : Char} (h : e.Justified room cs) (hc : opens c = true)
    (hEnd : cs <:+ ds) : e.Justified (room + 1) (c :: ds) := by
  cases e with
  | nestingTooDeep container =>
    have hCount : (c :: ds).countP opens = ds.countP opens + 1 := List.countP_cons_of_pos hc
    have hRest : room < ds.countP opens := h.mono hEnd
    change room + 1 < _
    omega
  | malformed mistake rest => trivial
  | integerTooLong n => exact h.mono (hEnd.trans (List.suffix_cons c ds))

theorem ReadError.Justified.full {c : Char} (hc : opens c = true) (container : Kind)
    (cs : List Char) : (nestingTooDeep container).Justified 0 (c :: cs) :=
  List.countP_pos_iff.mpr ⟨c, List.mem_cons_self, hc⟩

theorem Explained.mono (h : Explained room cs r) (hEnd : cs <:+ ds) : Explained room ds r := by
  rcases r with e | ⟨a, rest⟩
  · exact h.mono hEnd
  · exact List.IsSuffix.trans h hEnd

theorem Explained.justified (h : Explained room cs r) (hr : r = .error e) : e.Justified room cs := by
  rwa [hr] at h

theorem Explained.suffix {a : α} {rest : List Char} (h : Explained room cs r)
    (hr : r = .ok (a, rest)) : rest <:+ cs := by
  rwa [hr] at h

theorem skipSpace_suffix (cs : List Char) : skipSpace cs <:+ cs :=
  List.dropWhile_suffix _

theorem suffix_of_skipSpace {c : Char} {rest : List Char} (h : skipSpace cs = c :: rest) :
    rest <:+ cs :=
  (List.suffix_cons c rest).trans (h ▸ skipSpace_suffix cs)

/-! ## Strings -/

theorem explained_consUnit {n : Nat} {r : Reading (List Nat)} (h : Explained room cs r) :
    Explained room cs (consUnit n r) := by
  rcases r with e | ⟨units, rest⟩ <;> exact h

theorem explained_readUnits (room : Nat) (start cs : List Char) :
    Explained room cs (readUnits start cs) := by
  fun_induction readUnits start cs with
  | case1 => trivial
  | case2 rest => exact List.suffix_cons _ _
  | case3 => trivial
  | case4 => trivial
  | case5 => trivial
  | case6 a b c d rest hRest n hUnit ih =>
    exact explained_consUnit (ih.mono ⟨['\\', 'u', a, b, c, d], rfl⟩)
  | case7 => trivial
  | case8 c rest hNot e hEscape ih => exact explained_consUnit (ih.mono ⟨['\\', c], rfl⟩)
  | case9 => trivial
  | case10 => trivial
  | case11 c rest _ _ _ _ hPlain ih => exact explained_consUnit (ih.mono (List.suffix_cons _ _))

theorem explained_readString (room : Nat) (start cs : List Char) :
    Explained room cs (readString start cs) := by
  have h := explained_readUnits room start cs
  unfold readString
  cases hUnits : readUnits start cs with
  | error e =>
    rw [hUnits] at h
    exact h
  | ok r =>
    rw [hUnits] at h
    exact h

/-! ## Numbers -/

theorem readWhole_suffix (cs : List Char) : (readWhole cs).2 <:+ cs := by
  unfold readWhole
  split
  · exact List.suffix_cons _ _
  · exact List.dropWhile_suffix _

theorem spanDigits_suffix {digits rest : List Char} (h : spanDigits cs = (digits, rest)) :
    rest <:+ cs := by
  cases h
  exact List.dropWhile_suffix _

theorem readFraction_suffix (cs : List Char) : (readFraction cs).2 <:+ cs := by
  unfold readFraction
  split
  · split
    · exact List.suffix_refl _
    · next hSpan => exact (spanDigits_suffix hSpan).trans (List.suffix_cons _ _)
  · exact List.suffix_refl _

theorem readExponent_suffix (cs : List Char) : (readExponent cs).2 <:+ cs := by
  cases cs with
  | nil => exact List.suffix_refl _
  | cons c cs =>
    unfold readExponent
    dsimp only
    split
    · split
      · exact List.suffix_refl _
      · next hSpan =>
        refine (spanDigits_suffix hSpan).trans (List.IsSuffix.trans ?_ (List.suffix_cons c cs))
        split
        · exact List.suffix_cons _ _
        · exact List.suffix_cons _ _
        · exact List.suffix_refl _
    · exact List.suffix_refl _

theorem readWhole_digits (cs : List Char) :
    (readWhole cs).1 <:+: cs ∧ ∀ c ∈ (readWhole cs).1, c.isDigit = true := by
  unfold readWhole
  split
  · exact ⟨⟨[], _, rfl⟩, List.forall_mem_singleton.mpr rfl⟩
  · exact ⟨(List.takeWhile_prefix _).isInfix, List.all_eq_true.mp List.all_takeWhile⟩

theorem explained_readMagnitude (room : Nat) (start : List Char) (negative : Bool)
    (cs : List Char) : Explained room cs (readMagnitude start negative cs) := by
  have hWhole := readWhole_suffix cs
  obtain ⟨hInfix, hDigits⟩ := readWhole_digits cs
  unfold readMagnitude
  split
  · trivial
  · next whole rest _ hRead =>
    rw [hRead] at hWhole hInfix hDigits
    have hFraction := (readFraction_suffix rest).trans hWhole
    have hRest := (readExponent_suffix (readFraction rest).2).trans hFraction
    dsimp only
    split
    · split
      · next hLong => exact ⟨hLong, whole, hInfix, rfl, hDigits⟩
      · exact hRest
    · exact hRest

theorem explained_readNumber (room : Nat) (cs : List Char) :
    Explained room cs (readNumber cs) := by
  unfold readNumber
  split
  · exact (explained_readMagnitude room _ true _).mono (List.suffix_cons _ _)
  · exact explained_readMagnitude room _ false _

/-! ## Values -/

theorem readConstant?_suffix {v : Json} {rest : List Char}
    (h : readConstant? cs = some (v, rest)) : rest <:+ cs := by
  obtain ⟨⟨word, value⟩, -, hWord⟩ := List.exists_of_findSome?_eq_some h
  simp only [readWord?, Option.map_eq_some_iff] at hWord
  obtain ⟨left, hLeft, hPair⟩ := hWord
  cases hPair
  split at hLeft
  · cases hLeft
    exact List.drop_suffix _ _
  · cases hLeft

theorem explained_readValue {fuel : Nat}
    (hItems : ∀ room cs, Explained room cs (readItems fuel room cs))
    (hMembers : ∀ room cs, Explained room cs (readMembers fuel room cs)) (room : Nat)
    (cs : List Char) : Explained room cs (readValue (fuel + 1) room cs) := by
  have hInside : ∀ (c : Char) (rest : List Char), skipSpace rest <:+ c :: rest :=
    fun c rest => (skipSpace_suffix rest).trans (List.suffix_cons c rest)
  unfold readValue
  split
  · trivial
  · next rest =>
    have hString := (explained_readString room ('"' :: rest) rest).mono (List.suffix_cons '"' rest)
    split
    · next hError => exact hString.justified hError
    · next hRead => exact hString.suffix hRead
  · next rest =>
    split
    · exact .full rfl .array rest
    · next room =>
      split
      · next hClose => exact (suffix_of_skipSpace hClose).trans (List.suffix_cons _ _)
      · have hRest := hItems room (skipSpace rest)
        split
        · next hError => exact (hRest.justified hError).behind rfl (skipSpace_suffix rest)
        · next hRead => exact (hRest.suffix hRead).trans (hInside '[' rest)
  · next rest =>
    split
    · exact .full rfl .object rest
    · next room =>
      split
      · next hClose => exact (suffix_of_skipSpace hClose).trans (List.suffix_cons _ _)
      · have hRest := hMembers room (skipSpace rest)
        split
        · next hError => exact (hRest.justified hError).behind rfl (skipSpace_suffix rest)
        · next hRead => exact (hRest.suffix hRead).trans (hInside '{' rest)
  · split
    · next hConstant => exact readConstant?_suffix hConstant
    · exact explained_readNumber room _

theorem explained_readItems {fuel : Nat}
    (hValue : ∀ room cs, Explained room cs (readValue fuel room cs))
    (hItems : ∀ room cs, Explained room cs (readItems fuel room cs)) (room : Nat)
    (cs : List Char) : Explained room cs (readItems (fuel + 1) room cs) := by
  unfold readItems
  split
  · next hError => exact (hValue room cs).justified hError
  · next item rest hRead =>
    have hEnd : rest <:+ cs := (hValue room cs).suffix hRead
    split
    · next hClose => exact (suffix_of_skipSpace hClose).trans hEnd
    · next left hComma =>
      have hLeft := (skipSpace_suffix left).trans ((suffix_of_skipSpace hComma).trans hEnd)
      have hRest := (hItems room (skipSpace left)).mono hLeft
      split
      · next hError => exact hRest.justified hError
      · next hRead => exact hRest.suffix hRead
    · trivial

theorem explained_readMembers {fuel : Nat}
    (hValue : ∀ room cs, Explained room cs (readValue fuel room cs))
    (hMembers : ∀ room cs, Explained room cs (readMembers fuel room cs)) (room : Nat)
    (cs : List Char) : Explained room cs (readMembers (fuel + 1) room cs) := by
  unfold readMembers
  split
  · next inside =>
    have hName := (explained_readString room ('"' :: inside) inside).mono (List.suffix_cons '"' inside)
    split
    · next hError => exact hName.justified hError
    · next name behind hRead =>
      have hBehind : behind <:+ '"' :: inside := hName.suffix hRead
      split
      · next rest hColon =>
        have hInside := (skipSpace_suffix rest).trans ((suffix_of_skipSpace hColon).trans hBehind)
        have hFirst := (hValue room (skipSpace rest)).mono hInside
        split
        · next hError => exact hFirst.justified hError
        · next value end' hRead =>
          have hEnd : end' <:+ '"' :: inside := hFirst.suffix hRead
          split
          · next hClose => exact (suffix_of_skipSpace hClose).trans hEnd
          · next left hComma =>
            have hLeft := (skipSpace_suffix left).trans ((suffix_of_skipSpace hComma).trans hEnd)
            have hRest := (hMembers room (skipSpace left)).mono hLeft
            split
            · next hError => exact hRest.justified hError
            · next hRead => exact hRest.suffix hRead
          · trivial
      · trivial
  · trivial

theorem explained_readers (fuel : Nat) :
    (∀ room cs, Explained room cs (readValue fuel room cs)) ∧
      (∀ room cs, Explained room cs (readItems fuel room cs)) ∧
      ∀ room cs, Explained room cs (readMembers fuel room cs) := by
  -- the three readers call each other, each time with less fuel
  induction fuel with
  | zero => exact ⟨fun _ _ => trivial, fun _ _ => trivial, fun _ _ => trivial⟩
  | succ fuel ih =>
    obtain ⟨hValue, hItems, hMembers⟩ := ih
    exact ⟨explained_readValue hItems hMembers, explained_readItems hValue hItems,
      explained_readMembers hValue hMembers⟩

/-- The text justifies every error of the reader. -/
theorem justified_of_read {e : ReadError} (h : read cs = .error e) :
    e.Justified nestingLimit cs := by
  unfold read at h
  split at h
  · cases h
    trivial
  · have hValue := (explained_readers (2 * cs.length + 2)).1 nestingLimit (skipSpace cs)
    split at h
    · next hRead =>
      cases h
      rw [hRead] at hValue
      exact hValue.mono (skipSpace_suffix cs)
    · split at h
      · cases h
      · cases h
        trivial

/-! ## A number that is too long -/

theorem readNumber_ones {n : Nat} (h : digitLimit < n + 1) :
    readNumber ('1' :: List.replicate n '1') = .error (.integerTooLong (n + 1)) := by
  have hDigits : ∀ c ∈ List.replicate n '1', c.isDigit = true := by
    intro c hc
    rw [List.eq_of_mem_replicate hc]
    rfl
  have hTake := List.takeWhile_eq_self_iff.mpr hDigits
  have hDrop := List.dropWhile_eq_nil_iff.mpr hDigits
  have hWhole : readWhole ('1' :: List.replicate n '1') = ('1' :: List.replicate n '1', []) := by
    change ('1' :: (List.replicate n '1').takeWhile Char.isDigit,
      (List.replicate n '1').dropWhile Char.isDigit) = _
    rw [hTake, hDrop]
  have hStart : readNumber ('1' :: List.replicate n '1') =
      readMagnitude ('1' :: List.replicate n '1') false ('1' :: List.replicate n '1') := rfl
  rw [hStart, readMagnitude, hWhole]
  simp only [readFraction, readExponent, List.isEmpty_nil, Bool.and_self, if_true,
    List.length_cons, List.length_replicate, h]

theorem read_ones {n : Nat} (h : digitLimit < n) :
    read (List.replicate n '1') = .error (.integerTooLong n) := by
  obtain ⟨k, rfl⟩ : ∃ k, n = k + 1 := ⟨n - 1, by omega⟩
  have hValue : readValue (2 * ('1' :: List.replicate k '1').length + 2) nestingLimit
      (skipSpace ('1' :: List.replicate k '1')) = .error (.integerTooLong (k + 1)) :=
    readNumber_ones h
  rw [List.replicate_succ, read]
  · rw [hValue]
  · intro tail hMark
    simp at hMark

end SeedScript.Json
