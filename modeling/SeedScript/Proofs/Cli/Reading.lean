import SeedScript.Cli.Arguments
import SeedScript.Proofs.Stages

/-!
# What arguments give

Arguments that are accepted are options, one after the other, each with its value. The value is the next
argument, or it is attached to the option. Main statement: what is read of accepted arguments is what they
give to options, from left to right, and nothing is left over.
-/

namespace SeedScript.Cli

/-- What a text is to an option that takes a value. -/
inductive OptionSpec.Takes (o : OptionSpec) (text : String) : Given → Prop
  | text : o.effect = .text → o.Takes text (.text text)
  | number {n : Int} : o.effect = .number → integer? text = some n → o.Takes text (.number n)

/-- What an attached text is to an option. Two hyphens alone are no value. -/
inductive OptionSpec.TakesAttached (o : OptionSpec) (text : String) : Given → Prop
  | value {x : Given} : text ≠ "--" → o.Takes text x → o.TakesAttached text x
  | nothing : text = "--" → o.effect.takesValue = true → o.TakesAttached text .nothing

namespace Grammar

/-- An argument is a name of options: of switches, and in the end of one that may take a value. -/
structure Spells (g : Grammar) (s : String) (front : List OptionSpec) (ending : Ending) : Prop where
  ne : s ≠ "--"
  switches : ∀ o ∈ front, o.effect = .switch
  options : ∃ o name attached, g.classify s = .ok (.option o name attached) ∧
    optionsOf g o name attached = .ok (front, ending)

def present (front : List OptionSpec) : List (OptionSpec × Given) :=
  front.map fun o => (o, .present)

/-- The arguments of one name with what they give. -/
inductive GivesOne (g : Grammar) : List String → List (OptionSpec × Given) → Prop
  | switch {s : String} {front : List OptionSpec} {o : OptionSpec} :
      g.Spells s front (.plain o) → o.effect = .switch →
      g.GivesOne [s] (present front ++ [(o, .present)])
  | apart {s text : String} {front : List OptionSpec} {o : OptionSpec} {x : Given} :
      g.Spells s front (.plain o) → text ≠ "--" → g.classify text = .ok .value → o.Takes text x →
      g.GivesOne [s, text] (present front ++ [(o, x)])
  | attached {s text : String} {front : List OptionSpec} {o : OptionSpec} {x : Given} :
      g.Spells s front (.value o text) → o.TakesAttached text x →
      g.GivesOne [s] (present front ++ [(o, x)])

/-- Arguments with what they give to options, from left to right. -/
inductive Gives (g : Grammar) : List String → List (OptionSpec × Given) → Prop
  | nil : g.Gives [] []
  | cons {first rest : List String} {one given : List (OptionSpec × Given)} :
      g.GivesOne first one → g.Gives rest given → g.Gives (first ++ rest) (one ++ given)

end Grammar

open Grammar

variable {g : Grammar} {o : OptionSpec} {p q : Parsed} {front : List OptionSpec} {text : String}

/-! ## One option -/

theorem takeAlone_eq_ok_iff : p.takeAlone o = .ok q ↔
    o.effect ≠ .help ∧ { p with given := p.given ++ [(o, .present)] } = q := by
  unfold Parsed.takeAlone
  split <;> simp_all

theorem takeValue_eq_ok (hTakes : o.effect.takesValue = true) (h : p.takeValue o text = .ok q) :
    ∃ x, o.Takes text x ∧ { p with given := p.given ++ [(o, x)] } = q := by
  unfold Parsed.takeValue at h
  split at h
  · next hNumber =>
    split at h
    · next n hRead =>
      cases h
      exact ⟨.number n, .number hNumber hRead, rfl⟩
    · cases h
  · next hNumber =>
    cases h
    refine ⟨.text text, .text ?_, rfl⟩
    cases hEffect : o.effect with
    | text => rfl
    | number => exact absurd hEffect hNumber
    | help | switch =>
      rw [hEffect] at hTakes
      cases hTakes

theorem takeAttached_eq_ok (hTakes : o.effect.takesValue = true) (h : p.takeAttached o text = .ok q) :
    ∃ x, o.TakesAttached text x ∧ { p with given := p.given ++ [(o, x)] } = q := by
  unfold Parsed.takeAttached at h
  split at h
  · next hDropped =>
    cases h
    exact ⟨.nothing, .nothing hDropped hTakes, rfl⟩
  · next hText =>
    obtain ⟨x, hValue, hq⟩ := takeValue_eq_ok hTakes h
    exact ⟨x, .value hText hValue, hq⟩

theorem takeFront_eq_ok (h : takeFront p front = .ok q) :
    (∀ o ∈ front, o.effect ≠ .help) ∧ { p with given := p.given ++ present front } = q := by
  induction front generalizing p with
  | nil =>
    cases h
    exact ⟨List.forall_mem_nil _, by rw [present, List.map_nil, List.append_nil]⟩
  | cons o front ih =>
    obtain ⟨p', hFirst, hRest⟩ := Except.bind_eq_ok_iff.mp h
    obtain ⟨hHelp, rfl⟩ := takeAlone_eq_ok_iff.mp hFirst
    obtain ⟨hAll, rfl⟩ := ih hRest
    refine ⟨List.forall_mem_cons.mpr ⟨hHelp, hAll⟩, ?_⟩
    rw [present, List.map_cons, List.append_cons]
    rfl

/-- Only the last name in an argument can have a value. -/
def ValueIsLast (front : List OptionSpec) (ending : Ending) : Prop :=
  (∀ o ∈ front, o.effect.takesValue = false) ∧
    ∀ last value, ending = .value last value → last.effect.takesValue = true

variable {ending : Ending} {cs : List Char}

theorem valueIsLast_of_withText (h : withText o cs = .ok (front, ending)) : ValueIsLast front ending := by
  unfold withText at h
  split at h
  · next hTakes =>
    cases h
    refine ⟨List.forall_mem_nil _, ?_⟩
    rintro last value ⟨⟩
    exact hTakes
  · cases h

theorem valueIsLast_of_unbundle {short : Bool} (h : unbundle g o short cs = .ok (front, ending)) :
    ValueIsLast front ending := by
  induction o, short, cs using unbundle.induct g generalizing front ending with
  | case1 o short =>
    rw [unbundle] at h
    exact valueIsLast_of_withText h
  | case2 o short c cs hEnd =>
    rw [unbundle, if_pos hEnd] at h
    exact valueIsLast_of_withText h
  | case3 o short c cs hMore hNone =>
    rw [unbundle, if_neg hMore, hNone] at h
    exact valueIsLast_of_withText h
  | case4 o short c cs hMore next hNext ih =>
    rw [unbundle, if_neg hMore, hNext] at h
    obtain ⟨⟨front, ending⟩, hRest, hBoth⟩ := Except.map_eq_ok_iff.mp h
    cases hBoth
    have hSwitch : o.effect.takesValue = false := by
      rw [Bool.not_eq_true, Bool.or_eq_false_iff] at hMore
      exact hMore.1
    have hOthers : ValueIsLast front ending := by
      split at hRest
      · cases hRest
        exact ⟨List.forall_mem_nil _, nofun⟩
      · exact ih hRest
    exact ⟨List.forall_mem_cons.mpr ⟨hSwitch, hOthers.1⟩, hOthers.2⟩

theorem valueIsLast_of_optionsOf {name : String} {attached : Option (List Char)}
    (h : optionsOf g o name attached = .ok (front, ending)) : ValueIsLast front ending := by
  unfold optionsOf at h
  split at h
  · cases h
    exact ⟨List.forall_mem_nil _, nofun⟩
  · exact valueIsLast_of_unbundle h

theorem switch_of_not_takesValue (hValue : o.effect.takesValue = false) (hHelp : o.effect ≠ .help) :
    o.effect = .switch := by
  cases hEffect : o.effect with
  | switch => rfl
  | help => exact absurd hEffect hHelp
  | text | number =>
    rw [hEffect] at hValue
    cases hValue

/-! ## All arguments -/

theorem classifyAll_cases {s : String} {behind : List String} {classified : List (String × Argument)}
    (h : g.classifyAll (s :: behind) = .ok classified) :
    (s = "--" ∧ classified = (s, .separator) :: behind.map (·, .value)) ∨
      s ≠ "--" ∧ ∃ a others, g.classify s = .ok a ∧ g.classifyAll behind = .ok others ∧
        classified = (s, a) :: others := by
  unfold classifyAll at h
  split at h
  · next hSeparator =>
    cases h
    exact .inl ⟨hSeparator, rfl⟩
  · next hNe =>
    split at h
    · cases h
    · next a hClassify =>
      obtain ⟨others, hBehind, rfl⟩ := Except.map_eq_ok_iff.mp h
      exact .inr ⟨hNe, a, others, hClassify, hBehind, rfl⟩

theorem classifyAll_eq_cons {arguments : List String} {s : String} {a : Argument}
    {classified : List (String × Argument)}
    (h : g.classifyAll arguments = .ok ((s, a) :: classified)) (hSeparator : a ≠ .separator) :
    ∃ behind, arguments = s :: behind ∧ s ≠ "--" ∧ g.classify s = .ok a ∧
      g.classifyAll behind = .ok classified := by
  cases arguments with
  | nil => cases h
  | cons s' behind =>
    rcases classifyAll_cases h with ⟨rfl, hBoth⟩ | ⟨hNe, a', others, hClassify, hBehind, hBoth⟩
    · cases hBoth
      exact absurd rfl hSeparator
    · cases hBoth
      exact ⟨behind, rfl, hNe, hClassify, hBehind⟩

theorem eq_nil_of_classifyAll {arguments : List String} (h : g.classifyAll arguments = .ok []) :
    arguments = [] := by
  cases arguments with
  | nil => rfl
  | cons s behind =>
    rcases classifyAll_cases h with ⟨rfl, hBoth⟩ | ⟨hNe, a, others, hClassify, hBehind, hBoth⟩ <;>
      cases hBoth

theorem spells_of_takeFront {s name : String} {attached : Option (List Char)} (hNe : s ≠ "--")
    (hClassify : g.classify s = .ok (.option o name attached))
    (hOptions : optionsOf g o name attached = .ok (front, ending))
    (hHelp : ∀ o ∈ front, o.effect ≠ .help) : g.Spells s front ending where
  ne := hNe
  switches o' hMem :=
    switch_of_not_takesValue ((valueIsLast_of_optionsOf hOptions).1 o' hMem) (hHelp o' hMem)
  options := ⟨o, name, attached, hClassify, hOptions⟩

/-- What is read goes behind what has been read before, and if nothing is left over it is what arguments give. -/
def ReadsBehind (g : Grammar) (p q : Parsed) (classified : List (String × Argument)) : Prop :=
  ∃ given more, q = { given := p.given ++ given, left := p.left ++ more } ∧
    (more = [] → ∀ arguments, g.classifyAll arguments = .ok classified → g.Gives arguments given)

variable {classified rest : List (String × Argument)}

theorem ReadsBehind.leave {s : String} (h : ReadsBehind g (p.leave s) q rest) :
    ReadsBehind g p q classified := by
  obtain ⟨given, more, rfl, -⟩ := h
  refine ⟨given, s :: more, ?_, nofun⟩
  rw [List.append_cons]
  rfl

theorem ReadsBehind.take {one : List (OptionSpec × Given)}
    (h : ReadsBehind g { p with given := p.given ++ one } q rest)
    (hOne : ∀ arguments, g.classifyAll arguments = .ok classified → ∃ first behind,
      arguments = first ++ behind ∧ g.GivesOne first one ∧ g.classifyAll behind = .ok rest) :
    ReadsBehind g p q classified := by
  obtain ⟨given, more, rfl, hGives⟩ := h
  refine ⟨one ++ given, more, by rw [List.append_assoc], fun hMore arguments hAll => ?_⟩
  obtain ⟨first, behind, rfl, hFirst, hBehind⟩ := hOne arguments hAll
  exact .cons hFirst (hGives hMore behind hBehind)

theorem readsBehind_of_readArguments (h : readArguments g p classified = .ok q) :
    ReadsBehind g p q classified := by
  induction p, classified using readArguments.induct g generalizing q with
  | case1 p =>
    rw [readArguments] at h
    cases h
    refine ⟨[], [], by rw [List.append_nil, List.append_nil], fun _ arguments hAll => ?_⟩
    rw [eq_nil_of_classifyAll hAll]
    exact .nil
  | case2 p s rest ih | case3 p s rest ih | case4 p s rest ih =>
    rw [readArguments] at h
    exact (ih h).leave
  | case5 p s o name attached rest e hOptions =>
    rw [readArguments, hOptions] at h
    cases h
  | case6 p s o name attached front last hOptions hTakes value rest ih =>
    -- the value is the next argument
    rw [readArguments, hOptions] at h
    simp only [hTakes, if_true] at h
    obtain ⟨p', hFront, h⟩ := Except.bind_eq_ok_iff.mp h
    obtain ⟨p'', hValue, h⟩ := Except.bind_eq_ok_iff.mp h
    obtain ⟨hHelp, rfl⟩ := takeFront_eq_ok hFront
    obtain ⟨x, hMeans, rfl⟩ := takeValue_eq_ok hTakes hValue
    rw [List.append_assoc] at h
    refine (ih _ h).take fun arguments hAll => ?_
    obtain ⟨behind, rfl, hNe, hClassify, hAll⟩ := classifyAll_eq_cons hAll nofun
    obtain ⟨behind, rfl, hNe', hClassify', hAll⟩ := classifyAll_eq_cons hAll nofun
    have hSpells := spells_of_takeFront hNe hClassify hOptions hHelp
    exact ⟨[s, value], behind, rfl, .apart hSpells hNe' hClassify' hMeans, hAll⟩
  | case7 p s o name attached rest front last hOptions hTakes hNot =>
    rw [readArguments, hOptions] at h
    simp only [hTakes, if_true] at h
    cases h
  | case8 p s o name attached rest front last hOptions hTakes ih =>
    rw [readArguments, hOptions] at h
    simp only [hTakes] at h
    obtain ⟨p', hFront, h⟩ := Except.bind_eq_ok_iff.mp h
    obtain ⟨p'', hAlone, h⟩ := Except.bind_eq_ok_iff.mp h
    obtain ⟨hHelp, rfl⟩ := takeFront_eq_ok hFront
    obtain ⟨hHelp', rfl⟩ := takeAlone_eq_ok_iff.mp hAlone
    rw [List.append_assoc] at h
    refine (ih _ h).take fun arguments hAll => ?_
    obtain ⟨behind, rfl, hNe, hClassify, hAll⟩ := classifyAll_eq_cons hAll nofun
    have hSpells := spells_of_takeFront hNe hClassify hOptions hHelp
    have hSwitch := switch_of_not_takesValue (Bool.eq_false_iff.mpr hTakes) hHelp'
    exact ⟨[s], behind, rfl, .switch hSpells hSwitch, hAll⟩
  | case9 p s o name attached rest front last value hOptions ih =>
    rw [readArguments, hOptions] at h
    obtain ⟨p', hFront, h⟩ := Except.bind_eq_ok_iff.mp h
    obtain ⟨p'', hValue, h⟩ := Except.bind_eq_ok_iff.mp h
    obtain ⟨hHelp, rfl⟩ := takeFront_eq_ok hFront
    have hTakes := (valueIsLast_of_optionsOf hOptions).2 last value rfl
    obtain ⟨x, hMeans, rfl⟩ := takeAttached_eq_ok hTakes hValue
    rw [List.append_assoc] at h
    refine (ih _ h).take fun arguments hAll => ?_
    obtain ⟨behind, rfl, hNe, hClassify, hAll⟩ := classifyAll_eq_cons hAll nofun
    have hSpells := spells_of_takeFront hNe hClassify hOptions hHelp
    exact ⟨[s], behind, rfl, .attached hSpells hMeans, hAll⟩

theorem OptionSpec.Takes.takesValue {x : Given} (h : o.Takes text x) : o.effect.takesValue = true := by
  cases h with
  | text hEffect => rw [hEffect, Effect.takesValue]
  | number hEffect hRead => rw [hEffect, Effect.takesValue]

theorem takeValue_of_takes {x : Given} (h : o.Takes text x) (p : Parsed) :
    p.takeValue o text = .ok { p with given := p.given ++ [(o, x)] } := by
  unfold Parsed.takeValue
  cases h with
  | text hEffect =>
    rw [hEffect]
    rfl
  | number hEffect hRead => rw [if_pos hEffect, hRead]

theorem takeAttached_of_takes {x : Given} (h : o.TakesAttached text x) (p : Parsed) :
    p.takeAttached o text = .ok { p with given := p.given ++ [(o, x)] } := by
  unfold Parsed.takeAttached
  cases h with
  | value hNe hTakes => rw [if_neg hNe, takeValue_of_takes hTakes]
  | nothing hDashes hTakes => rw [if_pos hDashes]

theorem takeFront_of_switches (h : ∀ o ∈ front, o.effect = .switch) (p : Parsed) :
    takeFront p front = .ok { p with given := p.given ++ present front } := by
  induction front generalizing p with
  | nil =>
    rw [present, List.map_nil, List.append_nil]
    rfl
  | cons o front ih =>
    rw [List.forall_mem_cons] at h
    have hAlone : p.takeAlone o = .ok { p with given := p.given ++ [(o, .present)] } :=
      takeAlone_eq_ok_iff.mpr ⟨by rw [h.1]; nofun, rfl⟩
    have hRest := ih h.2 { p with given := p.given ++ [(o, .present)] }
    rw [List.append_assoc, List.singleton_append] at hRest
    exact Except.bind_eq_ok_iff.mpr ⟨_, hAlone, hRest⟩

theorem classifyAll_cons {s : String} {a : Argument} {rest : List String}
    {classified : List (String × Argument)} (hNe : s ≠ "--") (hClassify : g.classify s = .ok a)
    (hRest : g.classifyAll rest = .ok classified) :
    g.classifyAll (s :: rest) = .ok ((s, a) :: classified) := by
  rw [classifyAll, if_neg hNe, hClassify, hRest]
  rfl

theorem readArguments_of_gives {arguments : List String} {given : List (OptionSpec × Given)}
    (h : g.Gives arguments given) : ∃ classified, g.classifyAll arguments = .ok classified ∧
      ∀ p, readArguments g p classified = .ok { p with given := p.given ++ given } := by
  induction h with
  | nil => exact ⟨[], rfl, fun p => by rw [readArguments, List.append_nil]⟩
  | cons hOne _ ih =>
    obtain ⟨classified, hAll, hRead⟩ := ih
    cases hOne with
    | switch hSpells hSwitch =>
      obtain ⟨o, name, attached, hClassify, hOptions⟩ := hSpells.options
      refine ⟨_, classifyAll_cons hSpells.ne hClassify hAll, fun p => ?_⟩
      have hAlone {p : Parsed} := (takeAlone_eq_ok_iff (p := p)).mpr ⟨by rw [hSwitch]; nofun, rfl⟩
      rw [readArguments, hOptions]
      simp only [hSwitch, Effect.takesValue, takeFront_of_switches hSpells.switches, Except.bind, hAlone,
        hRead, List.append_assoc, if_false, Bool.false_eq_true]
    | apart hSpells hNe hClassify' hTakes =>
      obtain ⟨o, name, attached, hClassify, hOptions⟩ := hSpells.options
      refine ⟨_, classifyAll_cons hSpells.ne hClassify (classifyAll_cons hNe hClassify' hAll), fun p => ?_⟩
      rw [readArguments, hOptions]
      simp only [hTakes.takesValue, takeFront_of_switches hSpells.switches, Except.bind,
        takeValue_of_takes hTakes, hRead, List.append_assoc, if_true]
    | attached hSpells hTakes =>
      obtain ⟨o, name, attached, hClassify, hOptions⟩ := hSpells.options
      refine ⟨_, classifyAll_cons hSpells.ne hClassify hAll, fun p => ?_⟩
      rw [readArguments, hOptions]
      simp only [takeFront_of_switches hSpells.switches, Except.bind, takeAttached_of_takes hTakes, hRead,
        List.append_assoc]

/-- Arguments are accepted exactly if they are options with their values, and what is read of them is what they
give. -/
theorem parse_eq_ok_iff {arguments : List String} :
    g.parse arguments = .ok p ↔ g.Gives arguments p.given ∧ p.left = [] := by
  unfold parse parseKnown
  constructor
  · intro h
    obtain ⟨q, hKnown, h⟩ := Except.bind_eq_ok_iff.mp h
    split at h
    · next hLeft =>
      cases h
      split at hKnown
      · cases hKnown
      · next classified hAll =>
        obtain ⟨given, more, rfl, hGives⟩ := readsBehind_of_readArguments hKnown
        exact ⟨hGives (List.isEmpty_iff.mp hLeft) arguments hAll, List.isEmpty_iff.mp hLeft⟩
    · cases h
  · rintro ⟨hGives, hLeft⟩
    obtain ⟨classified, hAll, hRead⟩ := readArguments_of_gives hGives
    rw [hAll]
    refine Except.bind_eq_ok_iff.mpr ⟨p, ?_, if_pos (List.isEmpty_iff.mpr hLeft)⟩
    have hEmpty := hRead {}
    rw [List.nil_append] at hEmpty
    cases p
    cases hLeft
    exact hEmpty

/-! ## Options and what suits them -/

/-- What an option can be given. -/
def Given.Suits (o : OptionSpec) : Given → Prop
  | .present => o.effect = .switch
  | .text _ => o.effect = .text
  | .number _ => o.effect = .number
  | .nothing => o.effect.takesValue = true

theorem OptionSpec.Takes.suits {x : Given} (h : o.Takes text x) : x.Suits o := by
  cases h with
  | text hEffect => exact hEffect
  | number hEffect hRead => exact hEffect

theorem suits_of_givesOne {arguments : List String} {given : List (OptionSpec × Given)}
    (h : g.GivesOne arguments given) : ∀ x ∈ given, x.2.Suits x.1 := by
  have hFront {front : List OptionSpec} {s : String} {ending : Ending} (h : g.Spells s front ending) :
      ∀ x ∈ present front, x.2.Suits x.1 :=
    List.forall_mem_map.mpr h.switches
  cases h with
  | switch hSpells hSwitch =>
    exact List.forall_mem_append.mpr ⟨hFront hSpells, List.forall_mem_singleton.mpr hSwitch⟩
  | apart hSpells hNe hClassify hTakes =>
    exact List.forall_mem_append.mpr ⟨hFront hSpells, List.forall_mem_singleton.mpr hTakes.suits⟩
  | attached hSpells hTakes =>
    refine List.forall_mem_append.mpr ⟨hFront hSpells, List.forall_mem_singleton.mpr ?_⟩
    cases hTakes with
    | value hNe hTakes => exact hTakes.suits
    | nothing hDashes hTakes => exact hTakes

theorem suits_of_gives {arguments : List String} {given : List (OptionSpec × Given)}
    (h : g.Gives arguments given) : ∀ x ∈ given, x.2.Suits x.1 := by
  induction h with
  | nil => exact List.forall_mem_nil _
  | cons hOne hRest ih => exact List.forall_mem_append.mpr ⟨suits_of_givesOne hOne, ih⟩

end SeedScript.Cli
