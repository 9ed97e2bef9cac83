import SeedScript.Json.Printer
import SeedScript.Json.Reader
import SeedScript.Proofs.Identifier

/-!
# Reading what was printed

A value without numbers is read back from its print, in every layout that puts white space around the
parts of a container. Strings come first: each character is read back from its escape. Then values,
by the fuel that the length of their print allows and the room that their nesting takes.
-/

namespace SeedScript.Json

/-! ## Strings -/

theorem codeUnit?_hexDigits {n : Nat} (h : n < 65536) :
    ∃ a b c d, Text.hexDigits 4 n = [a, b, c, d] ∧ codeUnit? a b c d = some n := by
  refine ⟨_, _, _, _, rfl, ?_⟩
  have hDigit : ∀ m, Identifier.hexValue? (Text.hexDigit (m % 16)) = some (m % 16) :=
    fun m => Identifier.hexValue?_hexDigit (Nat.mod_lt m (by decide))
  simp only [codeUnit?, hDigit, Option.some.injEq]
  omega

theorem readUnits_printChar (start : List Char) (c : Char) {rest : List Char} (hne : rest ≠ []) :
    readUnits start (printChar c ++ rest) = consUnit c.toNat (readUnits start rest) := by
  unfold printChar
  split
  case h_8 hQuote hBackslash _ _ _ _ _ =>
    split
    · next hControl =>
      obtain ⟨a, b, c', d, hDigits, hUnit⟩ :=
        codeUnit?_hexDigits (Nat.lt_trans hControl (by decide : 0x20 < 65536))
      have hRest : rest.isEmpty = false := List.isEmpty_eq_false_iff.mpr hne
      rw [hDigits]
      simp only [List.cons_append, List.nil_append, readUnits, hRest, hUnit, Bool.false_eq_true,
        if_false]
    · next hPlain =>
      rw [List.singleton_append, readUnits]
      · rw [if_neg hPlain]
      · exact hQuote
      · exact fun h _ => hBackslash h
      · exact fun _ h _ => hBackslash h
      · exact fun _ _ h _ => hBackslash h
  all_goals rfl

theorem readUnits_flatMap (start cs rest : List Char) :
    readUnits start (cs.flatMap printChar ++ '"' :: rest) = .ok (cs.map Char.toNat, rest) := by
  induction cs with
  | nil => rfl
  | cons c cs ih =>
    have hne : cs.flatMap printChar ++ '"' :: rest ≠ [] := by simp
    rw [List.flatMap_cons, List.append_assoc, readUnits_printChar start c hne, ih]
    rfl

theorem textOfUnits_map (cs : List Char) : textOfUnits (cs.map Char.toNat) = some cs := by
  have hLow : ∀ c : Char, (isHighSurrogate c.toNat || isLowSurrogate c.toNat) = false := by
    intro c
    have hValid : c.toNat < 0xD800 ∨ 0xDFFF < c.toNat ∧ c.toNat < 0x110000 := c.valid
    simp only [isHighSurrogate, isLowSurrogate, Bool.or_eq_false_iff, Bool.and_eq_false_iff,
      decide_eq_false_iff_not]
    omega
  induction cs with
  | nil => rfl
  | cons c cs ih =>
    have hc := hLow c
    cases cs with
    | nil =>
      simp only [List.map_cons, List.map_nil, textOfUnits, hc, Bool.false_eq_true, if_false,
        Char.ofNat_toNat]
    | cons d ds =>
      rw [Bool.or_eq_false_iff] at hc
      rw [List.map_cons, List.map_cons, textOfUnits, hc.1, hc.2, ← List.map_cons, ih]
      simp only [Bool.false_eq_true, if_false, Option.map_some, Char.ofNat_toNat]

theorem toList_printString (s : String) :
    (printString s).toList = '"' :: (s.toList.flatMap printChar ++ ['"']) := by
  rw [printString, String.toList_ofList, List.cons_append]

theorem readString_printed (start : List Char) (s : String) (rest : List Char) :
    readString start (s.toList.flatMap printChar ++ '"' :: rest) = .ok (some s, rest) := by
  rw [readString, readUnits_flatMap]
  simp only [Except.map, textOfUnits_map, Option.map_some, String.ofList_toList]

/-! ## White space -/

theorem skipSpace_append {blanks : List Char} (h : ∀ c ∈ blanks, isSpace c = true)
    (cs : List Char) : skipSpace (blanks ++ cs) = skipSpace cs := by
  rw [skipSpace, List.dropWhile_append_of_pos h, skipSpace]

theorem skipSpace_of_head? {cs : List Char} {c : Char} (hHead : cs.head? = some c)
    (hc : isSpace c = false) : skipSpace cs = cs := by
  cases cs with
  | nil => cases hHead
  | cons d ds =>
    cases hHead
    rw [skipSpace, List.dropWhile_cons_of_neg (by simp [hc])]

theorem head?_append_of_head? {cs : List Char} {c : Char} (h : cs.head? = some c)
    (ds : List Char) : (cs ++ ds).head? = some c := by
  rw [List.head?_append, h, Option.some_or]

/-- White space stands at the start and the end of a container, and behind the comma between two
parts. -/
structure Layout.IsSpaced (l : Layout) : Prop where
  opening : ∀ depth, ∀ c ∈ (l.opening depth).toList, isSpace c = true
  separator : ∀ depth, ∃ blanks, (l.separator depth).toList = ',' :: blanks ∧
    ∀ c ∈ blanks, isSpace c = true
  closing : ∀ depth, ∀ c ∈ (l.closing depth).toList, isSpace c = true

theorem Layout.isSpace_of_mem_lineBreak {depth : Nat} {c : Char}
    (h : c ∈ (lineBreak depth).toList) : isSpace c = true := by
  rw [lineBreak, String.toList_ofList] at h
  rcases List.mem_cons.mp h with rfl | h
  · rfl
  · rw [List.eq_of_mem_replicate h]
    rfl

theorem Layout.isSpaced_indented : Layout.indented.IsSpaced where
  opening _ _ := isSpace_of_mem_lineBreak
  separator depth := ⟨(lineBreak (depth + 1)).toList, String.toList_append, fun _ =>
    isSpace_of_mem_lineBreak⟩
  closing _ _ := isSpace_of_mem_lineBreak

/-! ## Values -/

/-- A value without numbers and of texts only, with at most so many containers inside each other. -/
inductive PlainIn : Nat → Json → Prop
  | null {room : Nat} : PlainIn room .null
  | boolean {room : Nat} (b : Bool) : PlainIn room (.boolean b)
  | string {room : Nat} (s : String) : PlainIn room (.string (some s))
  | array {room : Nat} {items : List Json} :
      (∀ x ∈ items, PlainIn room x) → PlainIn (room + 1) (.array items)
  | object {room : Nat} {members : List (Option String × Json)} :
      (∀ m ∈ members, ∃ name, m.1 = some name) → (∀ m ∈ members, PlainIn room m.2) →
        PlainIn (room + 1) (.object members)

variable {l : Layout} {room : Nat}

theorem printItems_eq_map (l : Layout) (depth : Nat) (items : List Json) :
    printItems l depth items = items.map (print l depth) := by
  induction items with
  | nil => rfl
  | cons x items ih => rw [printItems, ih, List.map_cons]

def printMember (l : Layout) (depth : Nat) (m : Option String × Json) : String :=
  printString (m.1.getD "") ++ ": " ++ print l depth m.2

theorem printMembers_eq_map (l : Layout) (depth : Nat) (members : List (Option String × Json)) :
    printMembers l depth members = members.map (printMember l depth) := by
  induction members with
  | nil => rfl
  | cons m members ih =>
    obtain ⟨name, value⟩ := m
    rw [printMembers, ih, List.map_cons, printMember]

section Brackets

variable {left right : String} {a b : Char} (hLeft : left.toList = [a]) (hRight : right.toList = [b])

include hLeft hRight

theorem toList_enclose_nil (l : Layout) (depth : Nat) :
    (l.enclose depth left right []).toList = [a, b] := by
  simp [Layout.enclose, hLeft, hRight]

theorem toList_enclose_cons (l : Layout) (depth : Nat) (x : String) (xs : List String) :
    (l.enclose depth left right (x :: xs)).toList =
      a :: ((l.opening depth).toList ++ ((Text.join (l.separator depth) (x :: xs)).toList ++
        ((l.closing depth).toList ++ [b]))) := by
  simp [Layout.enclose, hLeft, hRight]

end Brackets

theorem toList_print_null (l : Layout) (depth : Nat) :
    (print l depth .null).toList = ['n', 'u', 'l', 'l'] := by
  rw [print]
  rfl

theorem toList_print_boolean (l : Layout) (depth : Nat) (b : Bool) :
    (print l depth (.boolean b)).toList =
      if b then ['t', 'r', 'u', 'e'] else ['f', 'a', 'l', 's', 'e'] := by
  rw [print]
  cases b <;> rfl

theorem PlainIn.head {v : Json} (h : v.PlainIn room) (l : Layout) (depth : Nat) :
    ∃ c, (print l depth v).toList.head? = some c ∧ isSpace c = false ∧ c ≠ ']' ∧ c ≠ '\uFEFF' := by
  cases h with
  | null =>
    rw [toList_print_null]
    exact ⟨'n', rfl, by decide⟩
  | boolean b =>
    rw [toList_print_boolean]
    cases b with
    | false => exact ⟨'f', rfl, by decide⟩
    | true => exact ⟨'t', rfl, by decide⟩
  | string s =>
    rw [print, toList_printString]
    exact ⟨'"', rfl, by decide⟩
  | @array _ items _ =>
    rw [print]
    cases items with
    | nil =>
      rw [printItems, toList_enclose_nil (a := '[') (b := ']') rfl rfl]
      exact ⟨'[', rfl, by decide⟩
    | cons x items =>
      rw [printItems, toList_enclose_cons (a := '[') (b := ']') rfl rfl]
      exact ⟨'[', rfl, by decide⟩
  | @object _ members _ _ =>
    rw [print]
    cases members with
    | nil =>
      rw [printMembers, toList_enclose_nil (a := '\x7b') (b := '\x7d') rfl rfl]
      exact ⟨'\x7b', rfl, by decide⟩
    | cons m members =>
      rw [printMembers, toList_enclose_cons (a := '\x7b') (b := '\x7d') rfl rfl]
      exact ⟨'\x7b', rfl, by decide⟩

/-- A text is read as a value, whatever follows it, with fuel for each character and each part. -/
def ReadsAs (room : Nat) (cs : List Char) (v : Json) : Prop :=
  ∀ fuel rest, 2 * cs.length ≤ fuel → readValue fuel room (cs ++ rest) = .ok (v, rest)

theorem readValue_constant {fuel : Nat} {cs rest : List Char} {v : Json} {c : Char}
    (hHead : cs.head? = some c) (hc : c ≠ '"' ∧ c ≠ '[' ∧ c ≠ '\x7b')
    (h : readConstant? cs = some (v, rest)) : readValue (fuel + 1) room cs = .ok (v, rest) := by
  cases cs with
  | nil => cases hHead
  | cons d ds =>
    cases hHead
    rw [readValue, h]
    · exact List.cons_ne_nil c ds
    · exact fun _ hEq => hc.1 (List.cons.inj hEq).1
    · exact fun _ hEq => hc.2.1 (List.cons.inj hEq).1
    · exact fun _ hEq => hc.2.2 (List.cons.inj hEq).1

theorem readValue_array {fuel : Nat} {blanks cs rest : List Char} {items : List Json} {c : Char}
    (hBlanks : ∀ b ∈ blanks, isSpace b = true) (hHead : cs.head? = some c)
    (hSpace : isSpace c = false) (hEnd : c ≠ ']')
    (h : readItems fuel room cs = .ok (items, rest)) :
    readValue (fuel + 1) (room + 1) ('[' :: (blanks ++ cs)) = .ok (.array items, rest) := by
  rw [readValue, skipSpace_append hBlanks, skipSpace_of_head? hHead hSpace]
  split
  · cases hHead
    exact absurd rfl hEnd
  · rw [h]

theorem readValue_object {fuel : Nat} {blanks cs rest : List Char} {members : Members}
    (hBlanks : ∀ b ∈ blanks, isSpace b = true) (hHead : cs.head? = some '"')
    (h : readMembers fuel room cs = .ok (members, rest)) :
    readValue (fuel + 1) (room + 1) ('\x7b' :: (blanks ++ cs)) = .ok (.object members, rest) := by
  rw [readValue, skipSpace_append hBlanks, skipSpace_of_head? hHead (by decide)]
  split
  · cases hHead
  · rw [h]

section Parts

variable {separator : String} {blanks closing : List Char}
  (hSeparator : separator.toList = ',' :: blanks) (hBlanks : ∀ b ∈ blanks, isSpace b = true)
  (hClosing : ∀ b ∈ closing, isSpace b = true)

include hSeparator hBlanks hClosing

/-- Items are read from the join of their prints, up to the end of the array. -/
theorem readItems_join {texts : Json → String} {items : List Json} (hne : items ≠ [])
    (hReads : ∀ x ∈ items, ReadsAs room (texts x).toList x)
    (hHeads : ∀ x ∈ items, ∃ c, (texts x).toList.head? = some c ∧ isSpace c = false)
    (rest : List Char) {fuel : Nat}
    (hFuel : 2 * (Text.join separator (items.map texts)).toList.length < fuel) :
    readItems fuel room
        ((Text.join separator (items.map texts)).toList ++ (closing ++ ']' :: rest)) =
      .ok (items, rest) := by
  induction items generalizing fuel with
  | nil => exact absurd rfl hne
  | cons x items ih =>
    obtain ⟨hx, hItems⟩ := List.forall_mem_cons.mp hReads
    obtain ⟨-, hHeads⟩ := List.forall_mem_cons.mp hHeads
    cases fuel with
    | zero => exact absurd hFuel (Nat.not_lt_zero _)
    | succ fuel =>
      cases items with
      | nil =>
        simp only [List.map_cons, List.map_nil, Text.join_singleton] at hFuel ⊢
        have hEnd : skipSpace (']' :: rest) = ']' :: rest := skipSpace_of_head? rfl (by decide)
        rw [readItems, hx fuel _ (by omega)]
        simp only [skipSpace_append hClosing, hEnd]
      | cons y items =>
        obtain ⟨c, hHead, hc⟩ := hHeads y List.mem_cons_self
        have hJoin : (Text.join separator ((y :: items).map texts)).toList.head? = some c :=
          Text.head?_join hHead
        rw [List.map_cons, List.map_cons, Text.join_cons_cons, ← List.map_cons] at hFuel ⊢
        simp only [String.toList_append, hSeparator, List.append_assoc, List.cons_append,
          List.length_append, List.length_cons] at hFuel ⊢
        have hComma : ∀ cs, skipSpace (',' :: cs) = ',' :: cs :=
          fun _ => skipSpace_of_head? rfl (by decide)
        rw [readItems, hx fuel _ (by omega)]
        simp only [hComma, skipSpace_append hBlanks]
        rw [skipSpace_of_head? (head?_append_of_head? hJoin _) hc,
          ih (List.cons_ne_nil y items) hItems hHeads (by omega)]

/-- A member is read from the print of its name, a colon and the print of its value. -/
theorem readMembers_join {texts : Option String × Json → String} {members : Members}
    (hne : members ≠ [])
    (hReads : ∀ m ∈ members, ∃ name cs, m.1 = some name ∧ ReadsAs room cs m.2 ∧
      (∃ c, cs.head? = some c ∧ isSpace c = false) ∧
      (texts m).toList = '"' :: (name.toList.flatMap printChar ++ '"' :: ':' :: ' ' :: cs))
    (rest : List Char) {fuel : Nat}
    (hFuel : 2 * (Text.join separator (members.map texts)).toList.length < fuel) :
    readMembers fuel room
        ((Text.join separator (members.map texts)).toList ++ (closing ++ '\x7d' :: rest)) =
      .ok (members, rest) := by
  have hColon : ∀ cs, skipSpace (':' :: cs) = ':' :: cs :=
    fun _ => skipSpace_of_head? rfl (by decide)
  have hBlank : ∀ cs, skipSpace (' ' :: cs) = skipSpace cs :=
    fun cs => skipSpace_append (List.forall_mem_singleton.mpr rfl) cs
  induction members generalizing fuel with
  | nil => exact absurd rfl hne
  | cons m members ih =>
    obtain ⟨⟨name, cs, hName, hx, ⟨c, hHead, hc⟩, hText⟩, hMembers⟩ := List.forall_mem_cons.mp hReads
    obtain ⟨key, value⟩ := m
    obtain rfl : key = some name := hName
    have hValue : ∀ ds, skipSpace (cs ++ ds) = cs ++ ds :=
      fun ds => skipSpace_of_head? (head?_append_of_head? hHead ds) hc
    cases fuel with
    | zero => exact absurd hFuel (Nat.not_lt_zero _)
    | succ fuel =>
      cases members with
      | nil =>
        simp only [List.map_cons, List.map_nil, Text.join_singleton, hText, List.cons_append,
          List.append_assoc, List.length_cons, List.length_append] at hFuel ⊢
        have hEnd : skipSpace ('\x7d' :: rest) = '\x7d' :: rest := skipSpace_of_head? rfl (by decide)
        rw [readMembers, readString_printed]
        simp only [hColon, hBlank, hValue]
        rw [hx fuel _ (by omega)]
        simp only [skipSpace_append hClosing, hEnd]
      | cons m' members =>
        obtain ⟨name', cs', -, -, -, hText'⟩ := hMembers m' List.mem_cons_self
        have hJoin : (Text.join separator ((m' :: members).map texts)).toList.head? = some '"' :=
          Text.head?_join (by rw [hText']; rfl)
        rw [List.map_cons, List.map_cons, Text.join_cons_cons, ← List.map_cons] at hFuel ⊢
        simp only [String.toList_append, hText, hSeparator, List.append_assoc, List.cons_append,
          List.length_append, List.length_cons] at hFuel ⊢
        have hComma : ∀ cs, skipSpace (',' :: cs) = ',' :: cs :=
          fun _ => skipSpace_of_head? rfl (by decide)
        rw [readMembers, readString_printed]
        simp only [hColon, hBlank, hValue]
        rw [hx fuel _ (by omega)]
        simp only [hComma, skipSpace_append hBlanks]
        rw [skipSpace_of_head? (head?_append_of_head? hJoin _) (by decide),
          ih (List.cons_ne_nil m' members) hMembers (by omega)]

end Parts

theorem toList_printMember (l : Layout) (depth : Nat) (name : String) (v : Json) :
    (printMember l depth (some name, v)).toList =
      '"' :: (name.toList.flatMap printChar ++ '"' :: ':' :: ' ' :: (print l depth v).toList) := by
  have hColon : (": " : String).toList = [':', ' '] := rfl
  simp only [printMember, Option.getD_some, String.toList_append, toList_printString, hColon,
    List.append_assoc, List.cons_append, List.nil_append]

theorem readsAs_of_succ {v : Json} {cs : List Char} (hne : cs ≠ [])
    (h : ∀ fuel rest, 2 * cs.length ≤ fuel + 1 →
      readValue (fuel + 1) room (cs ++ rest) = .ok (v, rest)) : ReadsAs room cs v := by
  intro fuel rest hFuel
  have hLength := List.length_pos_iff.mpr hne
  obtain ⟨fuel, rfl⟩ := Nat.exists_eq_succ_of_ne_zero (show fuel ≠ 0 by omega)
  exact h fuel rest hFuel

theorem readsAs_array {items : List Json} (hl : l.IsSpaced) {depth : Nat}
    (hItems : ∀ x ∈ items, x.PlainIn room)
    (hReads : ∀ x ∈ items, ReadsAs room (print l (depth + 1) x).toList x) :
    ReadsAs (room + 1) (print l depth (.array items)).toList (.array items) := by
  rw [print, printItems_eq_map]
  cases items with
  | nil =>
    rw [List.map_nil, toList_enclose_nil (a := '[') (b := ']') rfl rfl]
    apply readsAs_of_succ (List.cons_ne_nil _ _)
    intro fuel rest _
    have hEnd : skipSpace (']' :: rest) = ']' :: rest := skipSpace_of_head? rfl (by decide)
    rw [List.cons_append, List.singleton_append, readValue, hEnd]
    rfl
  | cons x items =>
    obtain ⟨c, hHead, hSpace, hEnd, -⟩ := (hItems x List.mem_cons_self).head l (depth + 1)
    obtain ⟨blanks, hSeparator, hBlanks⟩ := hl.separator depth
    rw [List.map_cons, toList_enclose_cons (a := '[') (b := ']') rfl rfl, ← List.map_cons]
    apply readsAs_of_succ (List.cons_ne_nil _ _)
    intro fuel rest hFuel
    simp only [List.length_append, List.length_cons, List.cons_append,
      List.append_assoc] at hFuel ⊢
    apply readValue_array (hl.opening depth)
      (head?_append_of_head? (Text.head?_join hHead) _) hSpace hEnd
    apply readItems_join hSeparator hBlanks (hl.closing depth) (List.cons_ne_nil _ _) hReads ?_ rest
      (by omega)
    intro y hy
    obtain ⟨d, hHead, hSpace, -⟩ := (hItems y hy).head l (depth + 1)
    exact ⟨d, hHead, hSpace⟩

theorem readsAs_object {members : Members} (hl : l.IsSpaced) {depth : Nat}
    (hNames : ∀ m ∈ members, ∃ name, m.1 = some name) (hValues : ∀ m ∈ members, m.2.PlainIn room)
    (hReads : ∀ m ∈ members, ReadsAs room (print l (depth + 1) m.2).toList m.2) :
    ReadsAs (room + 1) (print l depth (.object members)).toList (.object members) := by
  rw [print, printMembers_eq_map]
  cases members with
  | nil =>
    rw [List.map_nil, toList_enclose_nil (a := '\x7b') (b := '\x7d') rfl rfl]
    apply readsAs_of_succ (List.cons_ne_nil _ _)
    intro fuel rest _
    have hEnd : skipSpace ('\x7d' :: rest) = '\x7d' :: rest := skipSpace_of_head? rfl (by decide)
    rw [List.cons_append, List.singleton_append, readValue, hEnd]
    rfl
  | cons m members =>
    have hTexts : ∀ n ∈ m :: members, ∃ name cs, n.1 = some name ∧ ReadsAs room cs n.2 ∧
        (∃ c, cs.head? = some c ∧ isSpace c = false) ∧
        (printMember l (depth + 1) n).toList =
          '"' :: (name.toList.flatMap printChar ++ '"' :: ':' :: ' ' :: cs) := by
      rintro ⟨key, value⟩ hn
      obtain ⟨name, rfl⟩ : ∃ name, key = some name := hNames _ hn
      obtain ⟨c, hHead, hSpace, -⟩ := (hValues _ hn).head l (depth + 1)
      exact ⟨name, _, rfl, hReads _ hn, ⟨c, hHead, hSpace⟩, toList_printMember l _ name value⟩
    obtain ⟨name, cs, -, -, -, hText⟩ := hTexts m List.mem_cons_self
    have hHead : (printMember l (depth + 1) m).toList.head? = some '"' := by
      rw [hText]
      rfl
    obtain ⟨blanks, hSeparator, hBlanks⟩ := hl.separator depth
    rw [List.map_cons, toList_enclose_cons (a := '\x7b') (b := '\x7d') rfl rfl, ← List.map_cons]
    apply readsAs_of_succ (List.cons_ne_nil _ _)
    intro fuel rest hFuel
    simp only [List.length_append, List.length_cons, List.cons_append,
      List.append_assoc] at hFuel ⊢
    apply readValue_object (hl.opening depth) (head?_append_of_head? (Text.head?_join hHead) _)
    exact readMembers_join hSeparator hBlanks (hl.closing depth) (List.cons_ne_nil _ _) hTexts rest
      (by omega)

/-- A print is read as its value, whatever follows it. -/
theorem readsAs_print {v : Json} (hl : l.IsSpaced) (h : v.PlainIn room) (depth : Nat) :
    ReadsAs room (print l depth v).toList v := by
  induction h generalizing depth with
  | null =>
    rw [toList_print_null]
    apply readsAs_of_succ (List.cons_ne_nil _ _)
    intro fuel rest _
    exact readValue_constant (c := 'n') rfl (by decide) rfl
  | boolean b =>
    rw [toList_print_boolean]
    cases b with
    | false =>
      apply readsAs_of_succ (List.cons_ne_nil _ _)
      intro fuel rest _
      exact readValue_constant (c := 'f') rfl (by decide) rfl
    | true =>
      apply readsAs_of_succ (List.cons_ne_nil _ _)
      intro fuel rest _
      exact readValue_constant (c := 't') rfl (by decide) rfl
  | string s =>
    rw [print, Option.getD_some, toList_printString]
    apply readsAs_of_succ (List.cons_ne_nil _ _)
    intro fuel rest _
    rw [List.cons_append, List.append_assoc, List.singleton_append, readValue, readString_printed]
  | array hItems ih => exact readsAs_array hl hItems fun x hx => ih x hx (depth + 1)
  | object hNames hValues ih => exact readsAs_object hl hNames hValues fun m hm => ih m hm (depth + 1)

/-- A print with white space behind it is read as the value alone. -/
theorem read_print {v : Json} (hl : l.IsSpaced) (h : v.PlainIn nestingLimit) (depth : Nat)
    {blanks : List Char} (hBlanks : ∀ c ∈ blanks, isSpace c = true) :
    read ((print l depth v).toList ++ blanks) = .ok v := by
  obtain ⟨c, hHead, hSpace, -, hMark⟩ := h.head l depth
  have hHead := head?_append_of_head? hHead blanks
  have hLength : 2 * (print l depth v).toList.length ≤
      2 * ((print l depth v).toList ++ blanks).length + 2 := by
    rw [List.length_append]
    omega
  have hEnd : skipSpace blanks = [] := by
    have hNone := skipSpace_append hBlanks []
    rwa [List.append_nil] at hNone
  unfold read
  split
  · next hFirst =>
    rw [hFirst] at hHead
    cases hHead
    exact absurd rfl hMark
  · rw [skipSpace_of_head? hHead hSpace, readsAs_print hl h depth _ _ hLength]
    simp only [hEnd]

/-! ## Line ends -/

theorem Layout.not_mem_lineBreak (depth : Nat) : '\r' ∉ (lineBreak depth).toList := by
  intro h
  rw [lineBreak, String.toList_ofList] at h
  rcases List.mem_cons.mp h with h | h
  · cases h
  · cases List.eq_of_mem_replicate h

theorem not_mem_printChar (c : Char) : '\r' ∉ printChar c := by
  unfold printChar
  split
  case h_8 _ _ _ hReturn _ _ _ =>
    split
    · intro h
      rcases List.mem_append.mp h with h | h
      · revert h
        decide
      · rw [Identifier.hexDigits_eq_map] at h
        obtain ⟨d, hd, hDigit⟩ := List.mem_map.mp h
        have hAll : ∀ d < 16, Text.hexDigit d ≠ '\r' := by decide
        exact hAll d (Identifier.lt_of_mem_nibbles hd) hDigit
    · intro h
      exact hReturn (List.mem_singleton.mp h).symm
  all_goals decide

theorem not_mem_printString (s : String) : '\r' ∉ (printString s).toList := by
  rw [toList_printString]
  intro h
  rcases List.mem_cons.mp h with h | h
  · cases h
  · rcases List.mem_append.mp h with h | h
    · obtain ⟨c, -, h⟩ := List.mem_flatMap.mp h
      exact not_mem_printChar c h
    · cases List.mem_singleton.mp h

theorem Layout.not_mem_enclose {left right : String} {a b : Char} (hLeft : left.toList = [a])
    (hRight : right.toList = [b]) (ha : a ≠ '\r') (hb : b ≠ '\r') (depth : Nat) {parts : List String}
    (h : ∀ x ∈ parts, '\r' ∉ x.toList) :
    '\r' ∉ (Layout.indented.enclose depth left right parts).toList := by
  cases parts with
  | nil =>
    rw [toList_enclose_nil hLeft hRight]
    simp [ha.symm, hb.symm]
  | cons x parts =>
    have hSeparator : '\r' ∉ (Layout.indented.separator depth).toList := by
      rw [Layout.indented, String.toList_append, List.mem_append]
      rintro (h | h)
      · revert h
        decide
      · exact not_mem_lineBreak _ h
    have hJoin : '\r' ∉ (Text.join (Layout.indented.separator depth) (x :: parts)).toList := by
      rw [Text.mem_join_iff hSeparator]
      rintro ⟨y, hy, hMem⟩
      exact h y hy hMem
    rw [toList_enclose_cons hLeft hRight]
    simp only [List.mem_cons, List.mem_append, List.not_mem_nil, or_false, not_or]
    exact ⟨ha.symm, not_mem_lineBreak _, hJoin, not_mem_lineBreak _, hb.symm⟩

/-- No carriage return is printed, so line ends do not change when a print is read. -/
theorem PlainIn.not_mem_print {v : Json} (h : v.PlainIn room) (depth : Nat) :
    '\r' ∉ (print .indented depth v).toList := by
  induction h generalizing depth with
  | null =>
    rw [toList_print_null]
    decide
  | boolean b =>
    rw [toList_print_boolean]
    cases b <;> decide
  | string s =>
    rw [print]
    exact not_mem_printString s
  | @array _ items _ ih =>
    rw [print, printItems_eq_map]
    apply Layout.not_mem_enclose (a := '[') (b := ']') rfl rfl (by decide) (by decide)
    intro x hx
    obtain ⟨item, hItem, rfl⟩ := List.mem_map.mp hx
    exact ih item hItem (depth + 1)
  | @object _ members hNames _ ih =>
    rw [print, printMembers_eq_map]
    apply Layout.not_mem_enclose (a := '\x7b') (b := '\x7d') rfl rfl (by decide) (by decide)
    intro x hx
    obtain ⟨m, hm, rfl⟩ := List.mem_map.mp hx
    rw [printMember, String.toList_append, String.toList_append, List.mem_append, List.mem_append]
    rintro ((h | h) | h)
    · exact not_mem_printString _ h
    · revert h
      decide
    · exact ih m hm (depth + 1) h

end SeedScript.Json
