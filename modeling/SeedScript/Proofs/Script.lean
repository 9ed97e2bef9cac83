import SeedScript.Proofs.Compilation
import SeedScript.Proofs.Schema.Whole

/-!
# What the script of a compiled set says

The script of a set is read as a database reads it: cut at the semicolons outside of literals,
delimited names and bodies, with the last statement read literal by literal. It gives back the
definition of the table and the rows of the set, so no text of a record can add a statement, end one
or change what one means.
-/

namespace SeedScript

open Sql

/-- The script of a set is cut into its statements. Without rows none of them is an INSERT; with rows
the last one is, and only that one, and it inserts the rows into the table. -/
structure StatementSet.Says (s : StatementSet) (t : Schema.Table) (rows : List (List String)) :
    Prop where
  table : s.table = t.name
  cut : statements? s.script = some s.statements
  nothing : rows = [] → ∀ x ∈ s.statements, isInsertion x = false
  inserted : rows ≠ [] → ∃ ddl insert, s.statements = ddl ++ [insert] ∧
    (∀ x ∈ ddl, isInsertion x = false) ∧ isInsertion insert = true ∧
    insertion? insert = some ⟨t.name, t.insertColumns, rows⟩

namespace Schema.Table

/-- What it takes of a table for its sets to be read back. -/
structure IsReadable (t : Table) : Prop extends t.IsPlain where
  name : t.name.toList.getLast? ≠ some '\n'
  insertColumns : t.insertColumns ≠ []
  insertColumn : ∀ c ∈ t.insertColumns, c.toList.getLast? ≠ some '\n'

theorem mem_statements_seedSet {t : Table} {fullReseed : Bool} {rows : List (List String)}
    {ids : List Identifier} {x : String} :
    x ∈ (t.seedSet fullReseed rows ids).statements ↔
      x ∈ t.statements fullReseed ∨ insertText? t.name t.insertColumns rows = some x := by
  simp [StatementSet.statements, seedSet]

theorem IsReadable.says_seedSet {t : Table} (ht : t.IsReadable) (fullReseed : Bool)
    {rows : List (List String)} (hRows : ∀ row ∈ rows, row ≠ []) (ids : List Identifier) :
    (t.seedSet fullReseed rows ids).Says t rows where
  table := rfl
  cut := by
    have hStrip : ∀ x ∈ (t.seedSet fullReseed rows ids).statements, Text.strip x = x := by
      intro x hx
      rcases mem_statements_seedSet.mp hx with hx | hx
      · exact strip_of_mem_statements ht.name hx
      · exact strip_insertText hx
    have hWhole : ∀ x ∈ (t.seedSet fullReseed rows ids).statements,
        IsWhole (Text.strip x).toList := by
      intro x hx
      rw [hStrip x hx]
      rcases mem_statements_seedSet.mp hx with hx | hx
      · exact isWhole_of_mem_statements ht.toIsPlain hx
      · exact isWhole_insertText hx
    rw [statements?_script hWhole, List.map_congr_left hStrip, List.map_id']
  nothing := by
    intro hNone x hx
    rcases mem_statements_seedSet.mp hx with hx | hx
    · exact isInsertion_of_mem_statements hx
    · rw [insertText?_eq_none_iff.mpr hNone] at hx
      cases hx
  inserted := by
    intro hSome
    obtain ⟨text, hText⟩ : ∃ text, insertText? t.name t.insertColumns rows = some text := by
      apply Option.ne_none_iff_exists'.mp
      rwa [ne_eq, insertText?_eq_none_iff]
    refine ⟨t.statements fullReseed, text, ?_, fun x => isInsertion_of_mem_statements,
      isInsertion_insertText hText,
      insertion?_insertText hText ht.name ht.insertColumns ht.insertColumn hRows⟩
    rw [StatementSet.statements, seedSet, hText]
    rfl

end Schema.Table

/-- The rows that a set inserts, as its INSERT statement says them. -/
def StatementSet.rows? (s : StatementSet) : Option (List (List String)) :=
  match s.insert with
  | none => some []
  | some text => (insertion? text).map Insertion.rows

theorem Schema.Table.IsReadable.rows?_seedSet {t : Schema.Table} (ht : t.IsReadable)
    (fullReseed : Bool) {rows : List (List String)} (hRows : ∀ row ∈ rows, row ≠ [])
    (ids : List Identifier) : (t.seedSet fullReseed rows ids).rows? = some rows := by
  unfold StatementSet.rows? Schema.Table.seedSet
  cases hText : insertText? t.name t.insertColumns rows with
  | none => rw [insertText?_eq_none_iff.mp hText]
  | some text =>
    simp only [insertion?_insertText hText ht.name ht.insertColumns ht.insertColumn hRows,
      Option.map_some]

theorem Schema.isReadable_countries : Schema.countries.IsReadable :=
  ⟨isPlain_countries, by decide, by decide, by decide⟩

theorem Schema.isReadable_banks : Schema.banks.IsReadable :=
  ⟨isPlain_banks, by decide, by decide, by decide⟩

theorem says_countrySet (records : List CountryRecord) (fullReseed : Bool) (ids : List Identifier) :
    (countrySet records fullReseed ids).Says Schema.countries (countryRows records ids) :=
  Schema.isReadable_countries.says_seedSet fullReseed (fun _ => ne_nil_of_mem_countryRows) ids

theorem says_bankSet (records : List BankRecord) (fullReseed : Bool)
    (ids countries : List Identifier) :
    (bankSet records fullReseed ids countries).Says Schema.banks (bankRows records ids countries) :=
  Schema.isReadable_banks.says_seedSet fullReseed (fun _ => ne_nil_of_mem_bankRows) ids

theorem rows?_countrySet (records : List CountryRecord) (fullReseed : Bool)
    (ids : List Identifier) :
    (countrySet records fullReseed ids).rows? = some (countryRows records ids) :=
  Schema.isReadable_countries.rows?_seedSet fullReseed (fun _ => ne_nil_of_mem_countryRows) ids

theorem rows?_bankSet (records : List BankRecord) (fullReseed : Bool)
    (ids countries : List Identifier) :
    (bankSet records fullReseed ids countries).rows? = some (bankRows records ids countries) :=
  Schema.isReadable_banks.rows?_seedSet fullReseed (fun _ => ne_nil_of_mem_bankRows) ids

/-- Whatever the records hold, the script of compiled countries and that of compiled banks say one row
for each record, with the identifier drawn for it and its texts, and nothing else. -/
theorem says_of_compiled :
    (∀ (records : List CountryRecord) (fullReseed : Bool) (p q : Progress) (s : StatementSet),
      compileCountries records fullReseed p = (.ok s, q) →
        ∃ rows, s.Says Schema.countries rows ∧ rows.length = records.length ∧
          s.identifiers.length = records.length ∧
          ∀ (i : Nat) (c : CountryRecord), records[i]? = some c →
            ∃ u : Identifier, s.identifiers[i]? = some u ∧
              rows[i]? = some [u.text, c.currencyCode, c.currencyName, c.countryName, c.flag]) ∧
    ∀ (records : List BankRecord) (r : Resolver) (fullReseed : Bool) (p q : Progress)
      (s : StatementSet), compileBanks records r fullReseed p = (.ok s, q) →
        ∃ rows, s.Says Schema.banks rows ∧ rows.length = records.length ∧
          s.identifiers.length = records.length ∧
          ∀ (i : Nat) (b : BankRecord), records[i]? = some b →
            ∃ u v : Identifier, s.identifiers[i]? = some u ∧
              r.find b.countryDiscriminator = .ok v ∧ rows[i]? = some [u.text, b.bankName, v.text] := by
  constructor
  · intro records fullReseed p q s h
    obtain ⟨-, rfl, -⟩ := compileCountries_eq_ok_iff.mp h
    have hIds := p.length_draws records.length
    refine ⟨_, says_countrySet records fullReseed _, length_countryRows hIds, hIds, fun i c hc => ?_⟩
    have hu := p.getElem?_draws (List.getElem?_eq_some_iff.mp hc).1
    exact ⟨_, hu, getElem?_countryRows hc hu⟩
  · intro records r fullReseed p q s h
    obtain ⟨countries, hResolve, -, rfl, -⟩ := compileBanks_eq_ok_iff.mp h
    obtain ⟨hCountries, hFind⟩ := Resolver.resolveAll_map_eq_ok_iff.mp hResolve
    have hIds := p.length_draws records.length
    refine ⟨_, says_bankSet records fullReseed _ countries, length_bankRows hIds hCountries, hIds,
      fun i b hb => ?_⟩
    have hu := p.getElem?_draws (List.getElem?_eq_some_iff.mp hb).1
    obtain ⟨v, hv, hFound⟩ := hFind i b hb
    exact ⟨_, v, hu, hFound, getElem?_bankRows hb hu hv⟩

theorem says_of_compiled_quotes :
    (∃ s q, compileCountries [⟨"", "'", "');\n\nDROP TABLE banks; --", "$$\\", ""⟩] true .counting =
        (.ok s, q) ∧
      s.Says Schema.countries [["00000000-0000-0000-0000-000000000000", "'",
        "');\n\nDROP TABLE banks; --", "$$\\", ""]]) ∧
    ∃ t q, compileBanks [⟨"O''Hara;\n\n", "00000000-0000-0000-0000-00000000000A "⟩] {} false .counting =
        (.ok t, q) ∧
      t.Says Schema.banks [["00000000-0000-0000-0000-000000000000", "O''Hara;\n\n",
        "00000000-0000-0000-0000-00000000000a"]] := by
  constructor
  · have hFresh : Progress.counting.Fresh
        [CountryRecord.mk "" "'" "');\n\nDROP TABLE banks; --" "$$\\" ""].length := by decide
    have hRun := compileCountries_of_fresh hFresh true
    obtain ⟨rows, hSays, hLength, -, hRows⟩ := says_of_compiled.1 _ _ _ _ _ hRun
    obtain ⟨row, rfl⟩ := List.length_eq_one_iff.mp hLength
    obtain ⟨u, hu, hRow⟩ := hRows 0 _ rfl
    cases hu
    cases hRow
    exact ⟨_, _, hRun, hSays⟩
  · have hFresh : Progress.counting.Fresh [BankRecord.mk "O''Hara;\n\n"
        "00000000-0000-0000-0000-00000000000A "].length := by decide
    have hResolve : Resolver.resolveAll {} ["00000000-0000-0000-0000-00000000000A "] =
        .ok [Identifier.ofNat 10] := by decide
    have hRun := compileBanks_of_resolved hResolve hFresh false
    obtain ⟨rows, hSays, hLength, -, hRows⟩ := says_of_compiled.2 _ _ _ _ _ _ hRun
    obtain ⟨row, rfl⟩ := List.length_eq_one_iff.mp hLength
    obtain ⟨u, v, hu, hv, hRow⟩ := hRows 0 _ rfl
    cases hu
    cases hv
    cases hRow
    exact ⟨_, _, hRun, hSays⟩

end SeedScript
