import SeedScript.Dataset
import SeedScript.Proofs.Batch
import SeedScript.Proofs.Files.Reading
import SeedScript.Proofs.Json.Reading
import SeedScript.Proofs.Text.Utf8

/-!
# Loading datasets

What is read from a file is the value of its text. An export of identifiers is read back as it was
written, and a dataset of banks whose entries are texts has one record for each of them, in order, with the
text as it is and the next name of the source.
-/

namespace SeedScript

open Files (Location Path Tree)

theorem Files.Tree.locate_of_read? {t : Tree} {p : Path} {bytes : List UInt8}
    (h : t.read? p = some bytes) : ∃ l, t.locate p = .ok l := by
  cases hLocate : t.locate p with
  | error fault =>
    rw [read?, hLocate] at h
    cases h
  | ok l => exact ⟨l, rfl⟩

namespace Dataset

open RunStep

/-- The text that a dataset is read from. -/
def text? (tree : Tree) (path : String) : Option (List Char) :=
  (tree.read? (.ofText path)).bind fun bytes =>
    (Text.Utf8.decode bytes).toOption.map Text.unifyLineEnds

variable {tree : Tree} {path : String} {bytes : List UInt8} {cs : List Char} {v : Json}

theorem text?_of_read? (hFile : tree.read? (.ofText path) = some bytes)
    (hDecode : Text.Utf8.decode bytes = .ok cs) :
    text? tree path = some (Text.unifyLineEnds cs) := by
  rw [text?, hFile, Option.bind_some, hDecode]
  rfl

theorem readJson_of_text? (h : text? tree path = some cs) :
    readJson tree path = match Json.read cs with
      | .ok v => .ok v
      | .error (.malformed mistake rest) =>
        .error (.ofProblem (.malformed mistake (.of cs rest)) (Path.ofText path).text)
      | .error (.integerTooLong digits) => .error (.integerTooLong digits)
      | .error (.nestingTooDeep container) => .error (.nestingTooDeep container) := by
  cases hFile : tree.read? (.ofText path) with
  | none =>
    rw [text?, hFile] at h
    cases h
  | some bytes =>
    obtain ⟨l, hLocate⟩ := Files.Tree.locate_of_read? hFile
    cases hDecode : Text.Utf8.decode bytes with
    | error fault =>
      rw [text?, hFile, Option.bind_some, hDecode] at h
      cases h
    | ok chars =>
      cases (text?_of_read? hFile hDecode).symm.trans h
      unfold readJson
      cases hValue : Json.read (Text.unifyLineEnds chars) with
      | ok v => simp only [hLocate, hFile, hDecode, hValue]
      | error e => cases e <;> simp only [hLocate, hFile, hDecode, hValue]

/-- What is no text cannot be located, or read, or decoded. -/
theorem readJson_of_no_text (h : text? tree path = none) :
    (tree.locate (.ofText path) = .error .nameTooLong ∧
      readJson tree path = .error (.nameTooLong (Path.ofText path).text)) ∨
    readJson tree path = .error (.ofProblem .datasetMissing (Path.ofText path).text) ∨
    ∃ fault, readJson tree path =
      .error (.ofProblem (.undecodable fault) (Path.ofText path).text) := by
  unfold readJson
  dsimp only
  cases hFile : tree.read? (.ofText path) with
  | none =>
    cases hLocate : tree.locate (.ofText path) with
    | ok l => exact .inr (.inl rfl)
    | error fault =>
      cases fault with
      | nameTooLong => exact .inl ⟨rfl, rfl⟩
      | missing | notDirectory => exact .inr (.inl rfl)
  | some bytes =>
    obtain ⟨l, hLocate⟩ := Files.Tree.locate_of_read? hFile
    cases hDecode : Text.Utf8.decode bytes with
    | error fault =>
      right; right
      exact ⟨fault, by simp only [hLocate, hDecode]⟩
    | ok chars => cases (text?_of_read? hFile hDecode).symm.trans h

theorem readJson_of_read? (hFile : tree.read? (.ofText path) = some bytes)
    (hDecode : Text.Utf8.decode bytes = .ok cs)
    (hValue : Json.read (Text.unifyLineEnds cs) = .ok v) : readJson tree path = .ok v := by
  rw [readJson_of_text? (text?_of_read? hFile hDecode), hValue]

/-! ## Exports -/

theorem readJson_print {tree : Tree} {path : String} {v : Json} (h : v.PlainIn Json.nestingLimit)
    (hFile : tree.read? (.ofText path) = some (Text.Utf8.encode (v.indented ++ "\n"))) :
    readJson tree path = .ok v := by
  have hChars : (v.indented ++ "\n").toList = (Json.print .indented 0 v).toList ++ ['\n'] :=
    String.toList_append
  have hReturn : '\r' ∉ (v.indented ++ "\n").toList := by
    rw [hChars, List.mem_append]
    rintro (hMem | hMem)
    · exact h.not_mem_print 0 hMem
    · cases List.mem_singleton.mp hMem
  apply readJson_of_read? hFile (Text.Utf8.decode_encode _)
  rw [Text.unifyLineEnds_of_not_mem hReturn, hChars]
  exact Json.read_print Json.Layout.isSpaced_indented h 0 (List.forall_mem_singleton.mpr rfl)

theorem plainIn_exported (s : StatementSet) : s.exported.PlainIn Json.nestingLimit := by
  refine .object (List.forall_mem_singleton.mpr ⟨_, rfl⟩) (List.forall_mem_singleton.mpr (.array ?_))
  intro x hx
  obtain ⟨i, -, rfl⟩ := List.mem_map.mp hx
  exact .string i.text

theorem entries?_exported (s : StatementSet) :
    entries? s.exported =
      some ((s.identifiers.map Identifier.text).map fun d => .string (some d)) := by
  rw [List.map_map]
  rfl

/-! ## Entries that are texts -/

theorem readText_of_ne {f : Record.Field} {s : String} (h : s ≠ "") (key : String) :
    f.readText key (.string (some s)) = .ok s := by
  rw [Record.Field.readText, if_neg]
  rw [Bool.and_eq_true, not_and]
  intro _ hEmpty
  exact h (String.isEmpty_iff.mp hEmpty)

theorem ofMembers_of_found {members : Json.Members} {nameKey key name discriminator : String}
    (hFirst : BankRecord.bankNameField.find? members = some (nameKey, .string (some name)))
    (hSecond : BankRecord.discriminatorField.find? members = some (key, .string (some discriminator)))
    (hName : name ≠ "") (hDiscriminator : discriminator ≠ "") :
    BankRecord.ofMembers members = .ok ⟨name, discriminator⟩ := by
  rw [BankRecord.ofMembers]
  simp only [Record.Field.read, hFirst, hSecond, readText_of_ne hName, readText_of_ne hDiscriminator]

theorem bank_text {name discriminator : String} (hName : name ≠ "")
    (hBlank : Text.isBlankText discriminator = false) :
    bank name (.string (some discriminator)) = .ok ⟨name, discriminator⟩ := by
  have hne : discriminator ≠ "" := by
    rintro rfl
    cases hBlank
  rw [bank, isBlank, hBlank, if_neg Bool.false_ne_true, ofMembers_of_found rfl rfl hName hne]
  rfl

theorem banksFrom_texts {names : Nat → String} {ds : List String} (index drawn : Nat)
    (hBlank : ∀ d ∈ ds, Text.isBlankText d = false)
    (hNames : ∀ i < ds.length, names (drawn + i) ≠ "") :
    banksFrom names index drawn (ds.map fun d => .string (some d)) =
      (.ok (ds.mapIdx fun i d => ⟨names (drawn + i), d⟩), drawn + ds.length) := by
  induction ds generalizing index drawn with
  | nil => rfl
  | cons d ds ih =>
    obtain ⟨hd, hds⟩ := List.forall_mem_cons.mp hBlank
    have hFirst : names drawn ≠ "" := hNames 0 (Nat.zero_lt_succ _)
    have hRest : ∀ i < ds.length, names (drawn + 1 + i) ≠ "" := by
      intro i hi
      rw [Nat.add_assoc, Nat.add_comm 1 i]
      exact hNames (i + 1) (Nat.succ_lt_succ hi)
    have hNeeds : needsName (.string (some d)) = true := by
      simp [needsName, Json.kind, isBlank, hd]
    rw [List.map_cons, banksFrom, bank_text hFirst hd]
    simp only [hNeeds, if_true, ih (index + 1) (drawn + 1) hds hRest, Except.map, List.mapIdx_cons,
      List.length_cons, Nat.add_assoc, Nat.add_comm 1, Nat.add_zero]

/-- The source that names banks when none is given. -/
def namesFor (source : Option NameSource) : NameSource :=
  source.getD (.companies NameSource.defaultSuffix)

/-- The parts of the progress that drawing identifiers and names depends on. -/
structure SameSupplies (p q : Progress) : Prop where
  identifiers : q.identifiers = p.identifiers
  issued : q.issued = p.issued

def isText (entry : Json) : Bool :=
  entry.kind = .string

/-- A generator is made where no source is given and some entry is a text. -/
def generatorsFor (source : Option NameSource) (entries : List Json) : List Generator :=
  if source.isNone && entries.any isText then [⟨NameSource.defaultLocale, none⟩] else []

theorem generatorsFor_eq (source : Option NameSource) (entries : List Json) :
    generatorsFor source entries =
      if source = none ∧ ∃ entry ∈ entries, entry.kind = .string then [⟨"en_US", none⟩] else [] := by
  refine if_congr ?_ rfl rfl
  simp [isText]

theorem sourceFor_apply (source : Option NameSource) (entries : List Json) (p : Progress) :
    sourceFor source entries p = (.ok (namesFor source),
      { p with generators := p.generators ++ generatorsFor source entries }) := by
  cases source with
  | some s =>
    rw [generatorsFor, Option.isNone_some, Bool.false_and, if_neg Bool.false_ne_true, List.append_nil]
    rfl
  | none =>
    rw [generatorsFor, Option.isNone_none, Bool.true_and, sourceFor]
    unfold isText
    split
    · rfl
    · rw [List.append_nil]
      rfl

theorem sourceFor_eq (source : Option NameSource) (entries : List Json) (p : Progress) :
    ∃ q, sourceFor source entries p = (.ok (namesFor source), q) ∧ SameSupplies p q ∧
      (namesFor source).name q = (namesFor source).name p := by
  refine ⟨_, sourceFor_apply source entries p, ⟨rfl, rfl⟩, ?_⟩
  cases namesFor source <;> rfl

theorem sameSupplies_draw (s : NameSource) (n : Nat) (p : Progress) : SameSupplies p (s.draw n p) := by
  cases s <;> exact ⟨rfl, rfl⟩

/-- Texts that are not blank are all loaded, and named in order. -/
theorem loadBanks_texts {tree : Tree} {path : String} {source : Option NameSource} {v : Json}
    {ds : List String} {p : Progress} (hRead : readJson tree path = .ok v)
    (hEntries : entries? v = some (ds.map fun d => .string (some d)))
    (hBlank : ∀ d ∈ ds, Text.isBlankText d = false)
    (hNames : ∀ i < ds.length, (namesFor source).name p i ≠ "") :
    ∃ q, loadBanks tree path source p =
        (.ok (ds.mapIdx fun i d => ⟨(namesFor source).name p i, d⟩), q) ∧ SameSupplies p q := by
  obtain ⟨q, hSource, hSame, hName⟩ :=
    sourceFor_eq source (ds.map fun d => .string (some d)) p
  have hNames : ∀ i < ds.length, (namesFor source).name q (0 + i) ≠ "" := by
    intro i hi
    rw [hName, Nat.zero_add]
    exact hNames i hi
  have hBanks : nameBanks path (ds.map fun d => .string (some d)) (namesFor source) q =
      (.ok (ds.mapIdx fun i d => ⟨(namesFor source).name p i, d⟩),
        (namesFor source).draw (0 + ds.length) q) := by
    rw [nameBanks, banksFrom_texts 0 0 hBlank hNames]
    simp only [atEntry, Except.mapError, hName, Nat.zero_add]
  have hDraw := sameSupplies_draw (namesFor source) (0 + ds.length) q
  rw [loadBanks, hRead, bind_of_ok (ofResult_apply _ _)]
  simp only [hEntries]
  rw [bind_of_ok hSource, bind_of_ok hBanks]
  exact ⟨_, rfl, hDraw.identifiers.trans hSame.identifiers, hDraw.issued.trans hSame.issued⟩

end Dataset
end SeedScript
