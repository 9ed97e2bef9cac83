import SeedScript.Proofs.Export
import SeedScript.Proofs.Stages

/-!
# The two forms of a bank entry

An entry of a bank dataset is a text, which the source of names completes, or an object that brings a name
with it. What an entry comes to depends on the entries in front of it only through the number of names that
they use up. Main statement: an object with the name that would be drawn is loaded as the bare text is,
unless the text consists of white space. Such a text is refused, and such an object is loaded.
-/

namespace SeedScript

theorem Problem.type_of_load {problem : Problem} (h : problem.stage = .load) :
    problem.type = "DatasetError" := by
  cases problem <;> first | rfl | cases h

namespace Dataset

open Job (threeNames)
open RunStep

/-! ## Entries in their places -/

variable {names : Nat → String} {index drawn : Nat} {entry : Json} {before after : List Json}
  {record : BankRecord} {problem : Problem}

theorem drawn_after (entry : Json) (drawn : Nat) :
    (if needsName entry then drawn + 1 else drawn) = drawn + [entry].countP needsName := by
  rw [List.countP_singleton]
  split <;> rfl

theorem banksFrom_of_ok (h : bank (names drawn) entry = .ok record) :
    banksFrom names index drawn (entry :: after) =
      ((banksFrom names (index + 1) (drawn + [entry].countP needsName) after).1.map (record :: ·),
        (banksFrom names (index + 1) (drawn + [entry].countP needsName) after).2) := by
  rw [banksFrom, h, drawn_after]

theorem banksFrom_of_error (h : bank (names drawn) entry = .error problem) :
    banksFrom names index drawn (entry :: after) =
      (.error (index, problem), drawn + [entry].countP needsName) := by
  rw [banksFrom, h, drawn_after]

theorem banksFrom_cons_of_ok (h : bank (names drawn) entry = .ok record) :
    (banksFrom names index drawn (entry :: after)).1 =
      (banksFrom names (index + 1) (drawn + [entry].countP needsName) after).1.map (record :: ·) := by
  rw [banksFrom_of_ok h]

theorem banksFrom_cons_of_error (h : bank (names drawn) entry = .error problem) :
    (banksFrom names index drawn (entry :: after)).1 = .error (index, problem) := by
  rw [banksFrom_of_error h]

theorem banksFrom_cons_eq_ok_iff {records : List BankRecord} :
    (banksFrom names index drawn (entry :: after)).1 = .ok records ↔
      ∃ record rest, bank (names drawn) entry = .ok record ∧
        (banksFrom names (index + 1) (drawn + [entry].countP needsName) after).1 = .ok rest ∧
        record :: rest = records := by
  cases hEntry : bank (names drawn) entry with
  | error problem => simp [banksFrom_cons_of_error hEntry]
  | ok record =>
    rw [banksFrom_cons_of_ok hEntry, Except.map_eq_ok_iff]
    simp

/-- Entries that are all loaded when the first name that they may use is number `drawn`. -/
def Loads (names : Nat → String) (drawn : Nat) (entries : List Json) : Prop :=
  ∃ records, (banksFrom names 0 drawn entries).1 = .ok records

/-- The position of an entry shows only in its failure. -/
theorem banksFrom_ok_of_ok {records : List BankRecord}
    (h : (banksFrom names index drawn before).1 = .ok records) (index' : Nat) :
    (banksFrom names index' drawn before).1 = .ok records := by
  induction before generalizing index index' drawn records with
  | nil => exact h
  | cons entry entries ih =>
    obtain ⟨record, rest, hEntry, hRest, hRecords⟩ := banksFrom_cons_eq_ok_iff.mp h
    exact banksFrom_cons_eq_ok_iff.mpr ⟨record, rest, hEntry, ih hRest (index' + 1), hRecords⟩

theorem length_of_banksFrom {records : List BankRecord}
    (h : (banksFrom names index drawn before).1 = .ok records) : records.length = before.length := by
  induction before generalizing index drawn records with
  | nil =>
    cases h
    rfl
  | cons entry entries ih =>
    obtain ⟨record, rest, -, hRest, rfl⟩ := banksFrom_cons_eq_ok_iff.mp h
    rw [List.length_cons, List.length_cons, ih hRest]

/-- Behind entries that are loaded the next ones start at their position, with the names that are left. -/
theorem banksFrom_append_of_ok {records : List BankRecord}
    (h : (banksFrom names index drawn before).1 = .ok records) :
    (banksFrom names index drawn (before ++ after)).1 =
      (banksFrom names (index + before.length) (drawn + before.countP needsName) after).1.map
        (records ++ ·) := by
  induction before generalizing index drawn records with
  | nil =>
    cases h
    cases hAfter : (banksFrom names index drawn after).1 <;> simp [Except.map, hAfter]
  | cons entry entries ih =>
    obtain ⟨record, rest, hEntry, hRest, rfl⟩ := banksFrom_cons_eq_ok_iff.mp h
    have hCount : drawn + (entry :: entries).countP needsName =
        drawn + [entry].countP needsName + entries.countP needsName := by
      rw [Nat.add_assoc, ← List.countP_append, List.singleton_append]
    have hLength : index + (entry :: entries).length = index + 1 + entries.length := by
      rw [List.length_cons]
      omega
    rw [List.cons_append, banksFrom_cons_of_ok hEntry, ih hRest, hCount, hLength]
    cases (banksFrom names (index + 1 + entries.length)
      (drawn + [entry].countP needsName + entries.countP needsName) after).1 <;> rfl

/-! ## Datasets with one entry in view -/

variable {tree : Files.Tree} {path : String} {source : Option NameSource} {p : Progress}

/-- The file at a path is a bank dataset with these entries. -/
def Holds (tree : Files.Tree) (path : String) (entries : List Json) : Prop :=
  ∃ v, readJson tree path = .ok v ∧ entries? v = some entries

def LoadedAt (i : Nat) (record : BankRecord) (r : Except Error (List BankRecord)) : Prop :=
  ∃ records, r = .ok records ∧ records[i]? = some record

def RefusedAt (path : String) (i : Nat) (r : Except Error (List BankRecord)) : Prop :=
  ∃ f : Failure, r = .error (.failure f) ∧ f.problem.type = "DatasetError" ∧ f.stage = .load ∧
    f.path = some path ∧ f.index = some i

theorem loadBanks_apply {entries : List Json} (h : Holds tree path entries)
    (source : Option NameSource) (p : Progress) :
    ∃ q, loadBanks tree path source p =
        (atEntry path (banksFrom ((namesFor source).name p) 0 0 entries).1, q) ∧
      q.companies =
        ((namesFor source).draw (banksFrom ((namesFor source).name p) 0 0 entries).2 p).companies ∧
      q.generators = p.generators ++ generatorsFor source entries := by
  obtain ⟨v, hRead, hEntries⟩ := h
  have hSource := sourceFor_apply source entries p
  generalize hq : { p with generators := p.generators ++ generatorsFor source entries } = q at hSource
  have hName : (namesFor source).name q = (namesFor source).name p := by
    rw [← hq]
    cases namesFor source <;> rfl
  have hBanks : nameBanks path entries (namesFor source) q =
      (atEntry path (banksFrom ((namesFor source).name p) 0 0 entries).1,
        (namesFor source).draw (banksFrom ((namesFor source).name p) 0 0 entries).2 q) := by
    rw [nameBanks, hName]
  have hDraw : ∀ n, ((namesFor source).draw n q).companies = ((namesFor source).draw n p).companies ∧
      ((namesFor source).draw n q).generators = p.generators ++ generatorsFor source entries := by
    intro n
    rw [← hq]
    cases namesFor source <;> exact ⟨rfl, rfl⟩
  rw [loadBanks, hRead, bind_of_ok (ofResult_apply _ _)]
  simp only [hEntries]
  rw [bind_of_ok hSource]
  cases hResult : atEntry path (banksFrom ((namesFor source).name p) 0 0 entries).1 with
  | error e =>
    rw [hResult] at hBanks
    rw [bind_of_error hBanks]
    exact ⟨_, rfl, hDraw _⟩
  | ok records =>
    rw [hResult] at hBanks
    rw [bind_of_ok hBanks]
    exact ⟨_, rfl, hDraw _⟩

theorem loadBanks_eq {entries : List Json} (h : Holds tree path entries) (source : Option NameSource)
    (p : Progress) : (loadBanks tree path source p).1 =
      atEntry path (banksFrom ((namesFor source).name p) 0 0 entries).1 := by
  obtain ⟨q, hLoad, -⟩ := loadBanks_apply h source p
  rw [hLoad]

theorem refusedAt_of_bank (hHolds : Holds tree path (before ++ entry :: after))
    (hBefore : Loads ((namesFor source).name p) 0 before)
    (hEntry : bank ((namesFor source).name p (before.countP needsName)) entry = .error problem) :
    RefusedAt path before.length (loadBanks tree path source p).1 := by
  obtain ⟨firsts, hFirsts⟩ := hBefore
  have hStage := stage_of_bank hEntry
  refine ⟨⟨problem, path, before.length⟩, ?_, Problem.type_of_load hStage, hStage, rfl, rfl⟩
  rw [← Nat.zero_add (before.countP needsName)] at hEntry
  rw [loadBanks_eq hHolds, banksFrom_append_of_ok hFirsts, banksFrom_cons_of_error hEntry, Nat.zero_add]
  rfl

theorem loadedAt_of_bank (hHolds : Holds tree path (before ++ entry :: after))
    (hBefore : Loads ((namesFor source).name p) 0 before)
    (hEntry : bank ((namesFor source).name p (before.countP needsName)) entry = .ok record)
    (hAfter : Loads ((namesFor source).name p)
      (before.countP needsName + [entry].countP needsName) after) :
    LoadedAt before.length record (loadBanks tree path source p).1 := by
  obtain ⟨firsts, hFirsts⟩ := hBefore
  obtain ⟨lasts, hLasts⟩ := hAfter
  have hLength := length_of_banksFrom hFirsts
  refine ⟨firsts ++ record :: lasts, ?_, ?_⟩
  · rw [← Nat.zero_add (before.countP needsName)] at hEntry hLasts
    rw [loadBanks_eq hHolds, banksFrom_append_of_ok hFirsts, banksFrom_cons_of_ok hEntry,
      banksFrom_ok_of_ok hLasts]
    rfl
  · rw [List.getElem?_append_right (Nat.le_of_eq hLength), hLength, Nat.sub_self]
    rfl

/-! ## The two forms -/

def named (n : String) (s : Option String) : Json :=
  .object [(some "bankName", .string (some n)), (some "country", .string s)]

variable {n text : String} {s : Option String}

/-- The empty text and half a surrogate pair are no discriminators. -/
theorem ofMembers_unfit {members : Json.Members} {nameKey key : String}
    (hFirst : BankRecord.bankNameField.find? members = some (nameKey, .string (some n)))
    (hSecond : BankRecord.discriminatorField.find? members = some (key, .string s))
    (hName : n ≠ "") (hs : s = none ∨ s = some "") :
    ∃ problems, BankRecord.ofMembers members = .error problems := by
  rw [BankRecord.ofMembers]
  simp only [Record.Field.read, hFirst, hSecond, readText_of_ne hName]
  rcases hs with rfl | rfl <;> exact ⟨_, rfl⟩

theorem bank_named (name : String) (hName : n ≠ "") (hText : text ≠ "") :
    bank name (named n (some text)) = .ok ⟨n, text⟩ := by
  rw [named, bank, ofMembers_of_found rfl rfl hName hText]
  rfl

theorem bank_named_unfit (name : String) (hName : n ≠ "") (hs : s = none ∨ s = some "") :
    ∃ problem, bank name (named n s) = .error problem := by
  obtain ⟨problems, hProblems⟩ : ∃ problems, BankRecord.ofMembers
      [(some "bankName", .string (some n)), (some "country", .string s)] = .error problems :=
    ofMembers_unfit rfl rfl hName hs
  rw [named, bank, hProblems]
  exact ⟨_, rfl⟩

theorem bank_text_blank (name : String) (h : Text.isBlankText text = true) :
    bank name (.string (some text)) = .error .emptyDiscriminator := by
  rw [bank, isBlank, if_pos h]

theorem bank_text_unfit (hName : n ≠ "") (hs : s = none ∨ s = some "") :
    ∃ problem, bank n (.string s) = .error problem := by
  rcases hs with rfl | rfl
  · have hBlank : isBlank (.string none) = false := rfl
    obtain ⟨problems, hProblems⟩ : ∃ problems, BankRecord.ofMembers [(some "bank_name",
        .string (some n)), (some "country_discriminator", .string none)] = .error problems :=
      ofMembers_unfit rfl rfl hName (.inl rfl)
    rw [bank, hBlank, if_neg Bool.false_ne_true, hProblems]
    exact ⟨_, rfl⟩
  · exact ⟨_, bank_text_blank n rfl⟩

theorem countP_text (h : Text.isBlankText text = false) :
    [Json.string (some text)].countP needsName = 1 := by
  have hNeeds : needsName (.string (some text)) = true := by
    simp [needsName, Json.kind, isBlank, h]
  rw [List.countP_singleton, if_pos hNeeds]

/-- A bare text and an object that brings the name which would be drawn for the text. Both give the same
record for a text that is not blank, and both are refused for the empty text and for half a surrogate pair.
White space alone is refused as a text, but not in an object. -/
theorem loadBanks_forms {tree tree' : Files.Tree} {path : String} (source : Option NameSource)
    (p : Progress) {before after : List Json} {n : String} {s : Option String}
    (hText : Holds tree path (before ++ .string s :: after))
    (hObject : Holds tree' path (before ++ named n s :: after))
    (hDrawn : (namesFor source).name p (before.countP needsName) = n) (hName : n ≠ "")
    (hBefore : Loads ((namesFor source).name p) 0 before)
    (hAfterText : Loads ((namesFor source).name p) (before.countP needsName + 1) after)
    (hAfterObject : Loads ((namesFor source).name p) (before.countP needsName) after) :
    (∀ text, s = some text → Text.isBlankText text = false →
      LoadedAt before.length ⟨n, text⟩ (loadBanks tree path source p).1 ∧
        LoadedAt before.length ⟨n, text⟩ (loadBanks tree' path source p).1) ∧
    (s = none ∨ s = some "" →
      RefusedAt path before.length (loadBanks tree path source p).1 ∧
        RefusedAt path before.length (loadBanks tree' path source p).1) ∧
    ∀ text, s = some text → text ≠ "" → Text.isBlankText text = true →
      RefusedAt path before.length (loadBanks tree path source p).1 ∧
        LoadedAt before.length ⟨n, text⟩ (loadBanks tree' path source p).1 := by
  have hNamed : ∀ text, s = some text → text ≠ "" →
      LoadedAt before.length ⟨n, text⟩ (loadBanks tree' path source p).1 := by
    rintro text rfl hne
    exact loadedAt_of_bank hObject hBefore (bank_named _ hName hne) hAfterObject
  refine ⟨?_, ?_, ?_⟩
  · rintro text rfl hBlank
    have hne : text ≠ "" := by
      rintro rfl
      cases hBlank
    have hEntry := bank_text hName hBlank
    rw [← hDrawn] at hEntry
    refine ⟨?_, hNamed text rfl hne⟩
    rw [← hDrawn]
    refine loadedAt_of_bank hText hBefore hEntry ?_
    rwa [countP_text hBlank]
  · intro hs
    obtain ⟨problem, hEntry⟩ := bank_text_unfit hName hs
    obtain ⟨problem', hEntry'⟩ :=
      bank_named_unfit ((namesFor source).name p (before.countP needsName)) hName hs
    rw [← hDrawn] at hEntry
    exact ⟨refusedAt_of_bank hText hBefore hEntry, refusedAt_of_bank hObject hBefore hEntry'⟩
  · rintro text rfl hne hBlank
    exact ⟨refusedAt_of_bank hText hBefore (bank_text_blank _ hBlank), hNamed text rfl hne⟩

/-- A file of its own for the dataset that has an entry between two bare texts. -/
def onlyAround (entry : Json) : Files.Tree :=
  Job.onlyFile (Text.Utf8.encode ((Json.object [(some "identifiers",
    .array [.string (some "Ghana"), entry, .string (some "Togo")])]).indented ++ "\n"))

theorem holds_onlyAround {entry : Json} (h : entry.PlainIn 985) :
    Holds (onlyAround entry) "c.json" ([.string (some "Ghana")] ++ entry :: [.string (some "Togo")]) := by
  have hItems : ∀ e ∈ [.string (some "Ghana"), entry, .string (some "Togo")], e.PlainIn 985 := by
    simp [Json.PlainIn.string, h]
  have hPlain : (Json.object [(some "identifiers",
      .array [.string (some "Ghana"), entry, .string (some "Togo")])]).PlainIn Json.nestingLimit :=
    .object (List.forall_mem_singleton.mpr ⟨_, rfl⟩) (List.forall_mem_singleton.mpr (.array hItems))
  have hFile : ∀ bytes, (Job.onlyFile bytes).read? (.ofText "c.json") = some bytes := fun _ => rfl
  exact ⟨_, readJson_print hPlain (hFile _), rfl⟩

theorem plainIn_named (n text : String) : (named n (some text)).PlainIn 985 := by
  refine .object ?_ ?_
  · simp
  · simp [Json.PlainIn.string]

/-- The entry in the middle takes the second name. -/
theorem loadBanks_forms_middle :
    (LoadedAt 1 ⟨"Beta", "\u2003Mali"⟩
        (loadBanks (onlyAround (.string (some "\u2003Mali"))) "c.json" threeNames .counting).1 ∧
      LoadedAt 1 ⟨"Beta", "\u2003Mali"⟩
        (loadBanks (onlyAround (named "Beta" (some "\u2003Mali"))) "c.json" threeNames .counting).1) ∧
    (RefusedAt "c.json" 1 (loadBanks (onlyAround (.string (some ""))) "c.json" threeNames .counting).1 ∧
      RefusedAt "c.json" 1
        (loadBanks (onlyAround (named "Beta" (some ""))) "c.json" threeNames .counting).1) ∧
    RefusedAt "c.json" 1
        (loadBanks (onlyAround (.string (some "\u2003"))) "c.json" threeNames .counting).1 ∧
      LoadedAt 1 ⟨"Beta", "\u2003"⟩
        (loadBanks (onlyAround (named "Beta" (some "\u2003"))) "c.json" threeNames .counting).1 := by
  have hForms := fun text : String => loadBanks_forms (some threeNames) .counting
    (holds_onlyAround (.string text)) (holds_onlyAround (plainIn_named "Beta" text))
    rfl (by decide) ⟨_, rfl⟩ ⟨_, rfl⟩ ⟨_, rfl⟩
  refine ⟨?_, ?_, ?_⟩
  · exact (hForms "\u2003Mali").1 _ rfl (by decide)
  · exact (hForms "").2.1 (.inr rfl)
  · exact (hForms "\u2003").2.2 _ rfl (by decide) (by decide)

/-- A blank in the middle, and the two forms are not treated alike. -/
theorem loadBanks_forms_blank :
    (namesFor (some threeNames)).name .counting 1 = "Beta" ∧
      RefusedAt "c.json" 1 (loadBanks (onlyAround (.string (some " "))) "c.json" threeNames .counting).1 ∧
      LoadedAt 1 ⟨"Beta", " "⟩
        (loadBanks (onlyAround (named "Beta" (some " "))) "c.json" threeNames .counting).1 := by
  have hBefore : Loads ((namesFor (some threeNames)).name .counting) 0 [.string (some "Ghana")] :=
    ⟨_, rfl⟩
  refine ⟨rfl, ?_, ?_⟩
  · exact refusedAt_of_bank (holds_onlyAround (.string " ")) hBefore (bank_text_blank "Beta" (by decide))
  · exact loadedAt_of_bank (holds_onlyAround (plainIn_named "Beta" " ")) hBefore
      (bank_named "Beta" (by decide) (by decide)) ⟨_, rfl⟩

end Dataset
end SeedScript
