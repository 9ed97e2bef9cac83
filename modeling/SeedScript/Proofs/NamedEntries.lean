import SeedScript.Proofs.Entries

/-!
# Names in step with entries

An entry of a bank dataset that is a text takes the next name of the source, and an object takes none. Main
statement: banks are made one by one, the text number `k` with the name number `k`. Up to the first entry
that is refused, a name is drawn for each text, and for that entry itself if it is a text that is not blank.
-/

namespace SeedScript

namespace Dataset

open Record (Reads Reports)

/-! ## One entry -/

/-- A text that is not blank makes a bank with the name. An object makes one with what it offers. -/
inductive MakesBank (name : String) : Json → BankRecord → Prop
  | text {s : String} : Text.isBlankText s = false → name ≠ "" →
      MakesBank name (.string (some s)) ⟨name, s⟩
  | object {members : Json.Members} {b : BankRecord} :
      Reads (BankRecord.offers members) (b.fields.map Prod.snd) → MakesBank name (.object members) b

/-- The object that a text is completed to. -/
def completed (name : String) (s : Option String) : Json.Members :=
  [(some "bank_name", .string (some name)), (some "country_discriminator", .string s)]

inductive RefusesBank (name : String) : Json → Problem → Prop
  | blank {s : String} : Text.isBlankText s = true →
      RefusesBank name (.string (some s)) .emptyDiscriminator
  | unfitText {s : Option String} {found : List Validation.Problem} : isBlank (.string s) = false →
      Reports (BankRecord.offers (completed name s)) found →
      RefusesBank name (.string s) (.invalidBank found)
  | unfit {members : Json.Members} {found : List Validation.Problem} :
      Reports (BankRecord.offers members) found → RefusesBank name (.object members) (.invalidBank found)
  | neither {entry : Json} : entry.kind ≠ .string → entry.kind ≠ .object →
      RefusesBank name entry (.bankNotEntry entry.kind)

variable {name : String} {entry : Json} {b : BankRecord} {problem : Problem}

theorem ofMembers_completed {s : Option String} (h : BankRecord.ofMembers (completed name s) = .ok b) :
    name ≠ "" ∧ ∃ text, s = some text ∧ b = ⟨name, text⟩ := by
  have hReads := BankRecord.ofMembers_eq_ok_iff.mp h
  obtain ⟨bankName, discriminator⟩ := b
  obtain _ | ⟨hName, hRest⟩ := hReads
  obtain _ | ⟨hText, -⟩ := hRest
  obtain ⟨hGiven, hFit⟩ := hName
  obtain ⟨hCountry, -⟩ := hText
  have hFirst : BankRecord.bankNameField.find? (completed name s) =
      some ("bank_name", .string (some name)) := rfl
  have hSecond : BankRecord.discriminatorField.find? (completed name s) =
      some ("country_discriminator", .string s) := rfl
  cases hFirst.symm.trans (Record.Field.find?_eq_some_iff.mpr hGiven)
  cases hSecond.symm.trans (Record.Field.find?_eq_some_iff.mpr hCountry)
  exact ⟨hFit rfl, discriminator, rfl, rfl⟩

theorem bank_eq_ok_iff : bank name entry = .ok b ↔ MakesBank name entry b := by
  constructor
  · intro h
    cases entry with
    | string s =>
      rw [bank] at h
      split at h
      · cases h
      · next hBlank =>
        obtain ⟨hName, text, rfl, rfl⟩ := ofMembers_completed (Except.mapError_eq_ok_iff.mp h)
        exact .text (Bool.eq_false_iff.mpr hBlank) hName
    | object members => exact .object (BankRecord.ofMembers_eq_ok_iff.mp (Except.mapError_eq_ok_iff.mp h))
    | _ => cases h
  · rintro (⟨hBlank, hName⟩ | hReads)
    · exact bank_text hName hBlank
    · exact Except.mapError_eq_ok_iff.mpr (BankRecord.ofMembers_eq_ok_iff.mpr hReads)

theorem refusesBank_of_error (h : bank name entry = .error problem) : RefusesBank name entry problem := by
  cases entry with
  | string s =>
    rw [bank] at h
    split at h
    · next hBlank =>
      cases h
      cases s with
      | none => cases hBlank
      | some text => exact .blank hBlank
    · next hBlank =>
      obtain ⟨found, hFound, rfl⟩ := Except.mapError_eq_error_iff.mp h
      exact .unfitText (Bool.eq_false_iff.mpr hBlank) (BankRecord.ofMembers_eq_error_iff.mp hFound)
  | object members =>
    obtain ⟨found, hFound, rfl⟩ := Except.mapError_eq_error_iff.mp h
    exact .unfit (BankRecord.ofMembers_eq_error_iff.mp hFound)
  | _ =>
    cases h
    exact .neither (by simp [Json.kind]) (by simp [Json.kind])

theorem countP_of_ok (h : bank name entry = .ok b) : [entry].countP needsName = [entry].countP isText := by
  have hNeeds : needsName entry = isText entry := by
    cases bank_eq_ok_iff.mp h with
    | text hBlank => simp [needsName, isText, isBlank, hBlank]
    | object => rfl
  rw [List.countP_singleton, List.countP_singleton, hNeeds]

theorem bank_of_not_needsName (h : needsName entry = false) (other : String) :
    bank other entry = bank name entry := by
  cases entry with
  | string s =>
    have hBlank : isBlank (.string s) = true := by
      simpa [needsName, Json.kind] using h
    rw [bank, bank, if_pos hBlank, if_pos hBlank]
  | _ => rfl

/-! ## All entries -/

variable {names others : Nat → String} {index drawn n : Nat} {before after entries : List Json}
  {records : List BankRecord}

/-- The texts in front of an entry decide which name it may take. -/
def offer (names : Nat → String) (entries : List Json) (i : Nat) : String :=
  names ((entries.take i).countP isText)

/-- A blank text draws no name, but no entry behind it is reached. -/
theorem banksFrom_eq_collectFrom (names : Nat → String) (before after : List Json) :
    (banksFrom names before.length (before.countP isText) after).1 =
      collectFrom (fun i => bank (offer names (before ++ after) i)) before.length after := by
  induction after generalizing before with
  | nil => rfl
  | cons entry after ih =>
    have hOffer : offer names (before ++ entry :: after) before.length = names (before.countP isText) := by
      rw [offer, List.take_left]
    cases hEntry : bank (names (before.countP isText)) entry with
    | error problem => rw [banksFrom_cons_of_error hEntry, collectFrom, hOffer, hEntry]
    | ok record =>
      have hCount : before.countP isText + [entry].countP needsName =
          (before ++ [entry]).countP isText := by
        rw [List.countP_append, countP_of_ok hEntry]
      have hLength : before.length + 1 = (before ++ [entry]).length := by
        rw [List.length_append, List.length_singleton]
      rw [banksFrom_cons_of_ok hEntry, collectFrom, hOffer, hEntry, hCount, hLength, ih, List.append_assoc]
      rfl

theorem drawn_of_ok (h : (banksFrom names index drawn entries).1 = .ok records) :
    (banksFrom names index drawn entries).2 = drawn + entries.countP isText := by
  induction entries generalizing index drawn records with
  | nil => rfl
  | cons entry entries ih =>
    cases hEntry : bank (names drawn) entry with
    | error problem =>
      rw [banksFrom_of_error hEntry] at h
      cases h
    | ok record =>
      rw [banksFrom_of_ok hEntry] at h ⊢
      obtain ⟨rest, hRest, -⟩ := Except.map_eq_ok_iff.mp h
      rw [ih hRest, countP_of_ok hEntry, Nat.add_assoc, ← List.countP_append, List.singleton_append]

theorem drawn_of_error (h : (banksFrom names index drawn entries).1 = .error (n, problem)) :
    ∃ i entry, n = index + i ∧ entries[i]? = some entry ∧ (banksFrom names index drawn entries).2 =
      drawn + (entries.take i).countP isText + [entry].countP needsName := by
  induction entries generalizing index drawn with
  | nil => cases h
  | cons entry entries ih =>
    cases hEntry : bank (names drawn) entry with
    | error found =>
      rw [banksFrom_of_error hEntry] at h ⊢
      cases h
      exact ⟨0, entry, rfl, rfl, rfl⟩
    | ok record =>
      rw [banksFrom_of_ok hEntry] at h ⊢
      obtain ⟨i, bad, rfl, hBad, hDrawn⟩ := ih (Except.map_eq_error_iff.mp h)
      have hCount : (entry :: entries.take i).countP isText =
          [entry].countP isText + (entries.take i).countP isText := by
        rw [← List.countP_append, List.singleton_append]
      refine ⟨i + 1, bad, by omega, hBad, ?_⟩
      rw [hDrawn, List.take_succ_cons, hCount, countP_of_ok hEntry, Nat.add_assoc drawn]

theorem le_drawn (names : Nat → String) (index drawn : Nat) (entries : List Json) :
    drawn ≤ (banksFrom names index drawn entries).2 := by
  cases hResult : (banksFrom names index drawn entries).1 with
  | ok records =>
    rw [drawn_of_ok hResult]
    omega
  | error refused =>
    obtain ⟨i, entry, -, -, hDrawn⟩ := drawn_of_error hResult
    rw [hDrawn]
    omega

/-- Only the names that are drawn count. -/
theorem banksFrom_congr (h : ∀ k, drawn ≤ k → k < (banksFrom names index drawn entries).2 →
    others k = names k) : banksFrom others index drawn entries = banksFrom names index drawn entries := by
  induction entries generalizing index drawn with
  | nil => rfl
  | cons entry entries ih =>
    have hFirst : drawn + [entry].countP needsName ≤
        (banksFrom names index drawn (entry :: entries)).2 := by
      cases hEntry : bank (names drawn) entry with
      | error problem => rw [banksFrom_of_error hEntry]
      | ok record =>
        rw [banksFrom_of_ok hEntry]
        exact le_drawn _ _ _ _
    have hBank : bank (others drawn) entry = bank (names drawn) entry := by
      cases hNeeds : needsName entry with
      | false => exact bank_of_not_needsName hNeeds _
      | true =>
        rw [List.countP_singleton, if_pos hNeeds] at hFirst
        rw [h drawn (Nat.le_refl _) (by omega)]
    cases hEntry : bank (names drawn) entry with
    | error problem =>
      rw [banksFrom_of_error hEntry, banksFrom_of_error (hBank.trans hEntry)]
    | ok record =>
      rw [banksFrom_of_ok hEntry] at h ⊢
      rw [banksFrom_of_ok (hBank.trans hEntry), ih fun k hk => h k (by omega)]

/-! ## Datasets -/

open RunStep

variable {tree : Files.Tree} {path : String} {source : Option NameSource}

/-- How many names a dataset has drawn: one for each text, up to the entry that is refused. That one has
drawn a name too if it is a text that is not blank. -/
inductive Draws (path : String) (entries : List Json) : Except Error (List BankRecord) → Nat → Prop
  | all {records : List BankRecord} : Draws path entries (.ok records) (entries.countP isText)
  | upTo {i : Nat} {entry : Json} {f : Failure} : entries[i]? = some entry → f.path = some path →
      f.index = some i → Draws path entries (.error (.failure f))
        ((entries.take i).countP isText + [entry].countP needsName)

theorem draws_banksFrom (names : Nat → String) (path : String) (entries : List Json) :
    Draws path entries (atEntry path (banksFrom names 0 0 entries).1) (banksFrom names 0 0 entries).2 := by
  cases hResult : (banksFrom names 0 0 entries).1 with
  | ok records =>
    rw [drawn_of_ok hResult, Nat.zero_add]
    exact .all
  | error refused =>
    obtain ⟨n, problem⟩ := refused
    obtain ⟨i, entry, hn, hEntry, hDrawn⟩ := drawn_of_error hResult
    rw [Nat.zero_add] at hn hDrawn
    rw [hDrawn, hn]
    exact .upTo hEntry rfl rfl

/-- What a source hands out, and what is left of the company names of a run when `n` names are drawn from it.
Without a source, and with one of companies, each name is that of the next company with a suffix. -/
inductive HandsOut (companies : Supply String) (n : Nat) :
    Option NameSource → (Nat → String) → Supply String → Prop
  | default : HandsOut companies n none (fun k => companies.get k ++ " Bank") (companies.drop n)
  | companies {suffix : String} : HandsOut companies n (some (.companies suffix))
      (fun k => companies.get k ++ suffix) (companies.drop n)
  | given {supply : Supply String} : HandsOut companies n (some (.given supply)) supply.get companies

theorem HandsOut.of_none {companies left : Supply String} {names : Nat → String} {n : Nat}
    (h : HandsOut companies n none names left) :
    names = (fun k => companies.get k ++ " Bank") ∧ left = companies.drop n := by
  cases h
  exact ⟨rfl, rfl⟩

theorem handsOut_namesFor (source : Option NameSource) (p : Progress) (n : Nat) :
    HandsOut p.companies n source ((namesFor source).name p) ((namesFor source).draw n p).companies := by
  rcases source with _ | _ | suffix
  · exact .default
  · exact .given
  · exact .companies

/-- A bank is made of each entry, the text number `k` with the name number `k`, or else the first entry that
makes none is refused. The names that are drawn are used up, and they are the only ones that count. -/
theorem loadBanks_pointwise (hHolds : Holds tree path entries) (source : Option NameSource)
    (p : Progress) :
    ∃ names n,
      HandsOut p.companies n source names (loadBanks tree path source p).2.companies ∧
      Pointwise path entries (fun i => MakesBank (offer names entries i))
        (fun i => RefusesBank (offer names entries i)) (loadBanks tree path source p).1 ∧
      (banksFrom names 0 0 entries).2 = n ∧ Draws path entries (loadBanks tree path source p).1 n ∧
      (∀ supply : Supply String, (∀ k < n, supply.get k = names k) →
        (loadBanks tree path (some (.given supply)) p).1 = (loadBanks tree path source p).1) ∧
      (loadBanks tree path source p).2.generators = p.generators ++
        if source = none ∧ ∃ entry ∈ entries, entry.kind = .string then [⟨"en_US", none⟩] else [] := by
  obtain ⟨q, hLoad, hCompanies, hGenerators⟩ := loadBanks_apply hHolds source p
  have hCollect : (banksFrom ((namesFor source).name p) 0 0 entries).1 =
      collectFrom (fun i => bank (offer ((namesFor source).name p) entries i)) 0 entries :=
    banksFrom_eq_collectFrom _ [] entries
  have hHands := handsOut_namesFor source p (banksFrom ((namesFor source).name p) 0 0 entries).2
  rw [← hCompanies] at hHands
  rw [hLoad]
  refine ⟨_, _, hHands, ?_, rfl, draws_banksFrom _ _ _, fun supply hSupply => ?_, ?_⟩
  · rw [hCollect]
    apply pointwise_collectFrom
    · exact fun _ _ _ => bank_eq_ok_iff
    · exact fun _ _ _ => refusesBank_of_error
    · exact fun _ _ _ => stage_of_bank
  · obtain ⟨q', hGiven, -⟩ := loadBanks_apply hHolds (some (.given supply)) p
    have hSame : banksFrom supply.get 0 0 entries = banksFrom ((namesFor source).name p) 0 0 entries :=
      banksFrom_congr fun k _ hk => hSupply k hk
    rw [hGiven]
    exact congrArg (fun r => atEntry path r.1) hSame
  · rw [hGenerators, generatorsFor_eq]

def withCompanies : Progress :=
  { Progress.counting with companies := .ofList ["Alpha", "Beta"] fun _ => "Gamma" }

/-- An object between two texts leaves the second company to the second text, and the third is the next one. A
blank text between them is refused when only the first has been used up. -/
theorem loadBanks_pointwise_mixed :
    (EachMakes [.string (some "Ghana"), named "Union" (some "Mali"), .string (some "Togo")]
        (fun i => MakesBank (offer (fun k => withCompanies.companies.get k ++ " Bank")
          [.string (some "Ghana"), named "Union" (some "Mali"), .string (some "Togo")] i))
        [⟨"Alpha Bank", "Ghana"⟩, ⟨"Union", "Mali"⟩, ⟨"Beta Bank", "Togo"⟩] ∧
      (loadBanks (onlyAround (named "Union" (some "Mali"))) "c.json" none withCompanies).2.companies.get 0 =
        "Gamma") ∧
    Draws "c.json" [.string (some "Ghana"), .string (some " "), .string (some "Togo")]
        (loadBanks (onlyAround (.string (some " "))) "c.json" none withCompanies).1 1 ∧
      (loadBanks (onlyAround (.string (some " "))) "c.json" none withCompanies).2.companies.get 0 =
        "Beta" ∧
      (loadBanks (onlyAround (.string (some " "))) "c.json" none withCompanies).2.generators =
        [⟨"en_US", none⟩] := by
  have hUnion := holds_onlyAround (plainIn_named "Union" "Mali")
  have hLoad : (loadBanks (onlyAround (named "Union" (some "Mali"))) "c.json" none withCompanies).1 =
      .ok [⟨"Alpha Bank", "Ghana"⟩, ⟨"Union", "Mali"⟩, ⟨"Beta Bank", "Togo"⟩] := by
    rw [loadBanks_eq hUnion]
    rfl
  constructor
  · obtain ⟨names, n, hHands, hPointwise, hn, -⟩ := loadBanks_pointwise hUnion none withCompanies
    obtain ⟨rfl, hLeft⟩ := hHands.of_none
    cases (hn : 2 = n)
    exact ⟨hPointwise.each _ hLoad, by rw [hLeft]; rfl⟩
  · obtain ⟨names, n, hHands, -, hn, hDraws, -, hGenerators⟩ :=
      loadBanks_pointwise (holds_onlyAround (.string " ")) none withCompanies
    obtain ⟨rfl, hLeft⟩ := hHands.of_none
    cases (hn : 1 = n)
    refine ⟨hDraws, by rw [hLeft]; rfl, ?_⟩
    rw [hGenerators, if_pos ⟨rfl, _, List.mem_cons_self, rfl⟩]
    rfl

end Dataset
end SeedScript
