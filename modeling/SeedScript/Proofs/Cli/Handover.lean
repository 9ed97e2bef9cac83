import SeedScript.Proofs.Cli.Reading
import SeedScript.Proofs.Ending

/-!
# Commands of the program

The arguments of a command are read three times: by the parser of the program, which knows the names of the
commands, by one that knows nothing of a command but its name, and by the command itself. The first two
have too few options to find an argument ambiguous, and hand on what they do not know. Main statement:
whatever arguments follow a command, they all reach it, in order, and the run is that of the command alone.
-/

namespace SeedScript.Cli

namespace Grammar

variable {g : Grammar} {s : String} {arguments : List String}
  {classified : List (String × Argument)}

/-! ## Arguments that may be several options -/

theorem isLong_iff : isLong s = true ↔ "--".toList <+: s.toList :=
  List.isPrefixOf_iff_prefix

/-- A long argument can only be short for a long name, and a short one is never short for a long name. -/
theorem length_candidates_le (hLength : 2 ≤ s.toList.length) : (g.candidates s).length ≤
    g.entries.countP fun e => isLong e.1 = isLong s := by
  unfold candidates
  split
  · next hLong =>
    dsimp only
    rw [List.length_filterMap_eq_countP]
    refine List.countP_mono_left fun e _ hSome => ?_
    rw [hLong]
    obtain ⟨rest, hRest⟩ := isLong_iff.mp hLong
    have hStart : (splitEquals s).1.toList.isPrefixOf e.1.toList = true := by
      by_contra hNot
      simp [hNot] at hSome
    have hDashes : "--".toList <+: (splitEquals s).1.toList := by
      have hText : (splitEquals s).1.toList = s.toList.takeWhile (· ≠ '=') := String.toList_ofList
      rw [hText, ← hRest]
      exact ⟨rest.takeWhile (· ≠ '='), rfl⟩
    exact decide_eq_true (isLong_iff.mpr (hDashes.trans (List.isPrefixOf_iff_prefix.mp hStart)))
  · next hShort =>
    rw [List.length_filterMap_eq_countP]
    refine List.countP_mono_left fun e _ hSome => ?_
    rw [Bool.not_eq_true] at hShort
    rw [hShort, decide_eq_true_iff, ← Bool.not_eq_true]
    intro hName
    refine Bool.eq_false_iff.mp hShort (isLong_iff.mpr ?_)
    have hDashes := isLong_iff.mp hName
    by_cases hTake : e.1.toList = s.toList.take 2
    · rw [hTake] at hDashes
      exact hDashes.trans (List.take_prefix 2 s.toList)
    · have hPrefix : s.toList.isPrefixOf e.1.toList = true := by
        by_contra hNot
        simp [hTake, hNot] at hSome
      exact List.prefix_of_prefix_length_le hDashes (List.isPrefixOf_iff_prefix.mp hPrefix) hLength

/-- No argument can stand for several options. -/
def IsClear (g : Grammar) : Prop :=
  ∀ s, ∃ a, g.classify s = .ok a

theorem two_le_length_of_head? (hHead : s.toList.head? = some '-') (hNe : s ≠ "-") :
    2 ≤ s.toList.length := by
  match hList : s.toList with
  | [] =>
    rw [hList] at hHead
    cases hHead
  | [c] =>
    rw [hList] at hHead
    cases hHead
    exact absurd (String.toList_injective hList) hNe
  | _ :: _ :: cs => exact Nat.le_add_left 2 cs.length

theorem isClear_of_countP (h : ∀ long, (g.entries.countP fun e => isLong e.1 = long) ≤ 1) :
    g.IsClear := by
  intro s
  unfold classify
  split
  · exact ⟨_, rfl⟩
  · next hHead =>
    split
    · exact ⟨_, rfl⟩
    · next hNe =>
      have hLength := two_le_length_of_head? (not_not.mp hHead) hNe
      have hFew := (length_candidates_le (g := g) hLength).trans (h _)
      cases g.whole? s with
      | some a => exact ⟨a, rfl⟩
      | none =>
        match hCandidates : g.candidates s with
        | [] => exact ⟨_, rfl⟩
        | [(name, o, attached)] => exact ⟨_, rfl⟩
        | first :: second :: rest =>
          rw [hCandidates] at hFew
          exact absurd hFew (Nat.not_le.mpr (Nat.le_add_left 2 rest.length))

theorem exists_classifyAll (h : g.IsClear) (arguments : List String) :
    ∃ classified, g.classifyAll arguments = .ok classified := by
  induction arguments with
  | nil => exact ⟨[], rfl⟩
  | cons s behind ih =>
    by_cases hSeparator : s = "--"
    · exact ⟨_, if_pos hSeparator⟩
    · obtain ⟨a, hClassify⟩ := h s
      obtain ⟨classified, hBehind⟩ := ih
      exact ⟨_, classifyAll_cons hSeparator hClassify hBehind⟩

theorem map_fst_classifyAll (h : g.classifyAll arguments = .ok classified) :
    classified.map Prod.fst = arguments := by
  induction arguments generalizing classified with
  | nil =>
    cases h
    rfl
  | cons s behind ih =>
    rcases classifyAll_cases h with ⟨hSeparator, rfl⟩ | ⟨hNe, a, others, hClassify, hBehind, rfl⟩
    · simp [Function.comp_def]
    · rw [List.map_cons, ih hBehind]

/-! ## A parser without options -/

theorem classify_commandGrammar_ne (s : String) (o : OptionSpec) (name : String)
    (attached : Option (List Char)) : commandGrammar.classify s ≠ .ok (.option o name attached) := by
  have hWhole : commandGrammar.whole? s = none := by
    unfold whole?
    split <;> simp_all [commandGrammar, find?, entries]
  have hNone : commandGrammar.candidates s = [] := by
    unfold candidates
    split <;> rfl
  unfold classify
  rw [hWhole, hNone]
  dsimp only
  split
  · nofun
  · split
    · nofun
    · split <;> nofun

theorem not_option_of_classifyAll (h : commandGrammar.classifyAll arguments = .ok classified) :
    ∀ x ∈ classified, ∀ o name attached, x.2 ≠ .option o name attached := by
  induction arguments generalizing classified with
  | nil =>
    cases h
    exact List.forall_mem_nil _
  | cons s behind ih =>
    rcases classifyAll_cases h with ⟨hSeparator, rfl⟩ | ⟨hNe, a, others, hClassify, hBehind, rfl⟩
    · rw [List.forall_mem_cons, List.forall_mem_map]
      exact ⟨nofun, fun _ _ => nofun⟩
    · rw [List.forall_mem_cons]
      refine ⟨?_, ih hBehind⟩
      rintro o name attached rfl
      exact classify_commandGrammar_ne s o name attached hClassify

end Grammar

/-- Arguments of which none is an option are left over, in order. -/
theorem readArguments_of_not_option (g : Grammar) {classified : List (String × Argument)}
    (h : ∀ x ∈ classified, ∀ o name attached, x.2 ≠ .option o name attached) (p : Parsed) :
    readArguments g p classified = .ok { p with left := p.left ++ classified.map Prod.fst } := by
  induction classified generalizing p with
  | nil => rw [List.map_nil, List.append_nil, readArguments]
  | cons x rest ih =>
    rw [List.forall_mem_cons] at h
    have hRest := ih h.2 (p.leave x.1)
    obtain ⟨s, a⟩ := x
    rw [List.map_cons, List.append_cons]
    cases a with
    | option o name attached => exact absurd rfl (h.1 o name attached)
    | value | separator | unknown =>
      rw [readArguments]
      exact hRest

theorem parseKnown_commandGrammar (arguments : List String) :
    commandGrammar.parseKnown arguments = .ok { left := arguments } := by
  have hClear : commandGrammar.IsClear := Grammar.isClear_of_countP fun _ => Nat.zero_le 1
  obtain ⟨classified, hAll⟩ := Grammar.exists_classifyAll hClear arguments
  have hLeft := readArguments_of_not_option commandGrammar (Grammar.not_option_of_classifyAll hAll) {}
  rw [Grammar.map_fst_classifyAll hAll] at hLeft
  rw [Grammar.parseKnown, hAll]
  exact hLeft

/-! ## From the program to the command -/

theorem isClear_programGrammar : programGrammar.IsClear :=
  Grammar.isClear_of_countP (by decide)

theorem enter_word (c : Command) (handed arguments : List String) :
    enter c.word handed arguments = .ok (c, handed ++ arguments) := by
  rw [enter, readCommand, Command.ofWord?_word, parseKnown_commandGrammar]
  rfl

theorem splitCommand_word (c : Command) (arguments : List String) :
    splitCommand (c.word :: arguments) = .ok (c, arguments) := by
  obtain ⟨classified, hAll⟩ := Grammar.exists_classifyAll isClear_programGrammar arguments
  have hWord : c.word ≠ "--" := by cases c <;> decide
  have hValue : programGrammar.classify c.word = .ok .value := by cases c <;> rfl
  have hBehind := Grammar.map_fst_classifyAll hAll
  rw [splitCommand, Grammar.classifyAll, if_neg hWord, hValue, hAll]
  simp only [Except.map, findCommand, hBehind, enter_word, List.nil_append]

/-- Whatever arguments follow the name of a command, the program hands all of them on to the command, in order
and as they are, and runs as the command does on these arguments. -/
theorem run_word_eq_runDirect (m : Log.Machine) (progress : Progress) (c : Command) (arguments : List String) :
    splitCommand (c.word :: arguments) = .ok (c, arguments) ∧
      run m progress (c.word :: arguments) = runDirect m progress c arguments :=
  ⟨splitCommand_word c arguments, run_eq_runDirect (splitCommand_word c arguments)⟩

end SeedScript.Cli
