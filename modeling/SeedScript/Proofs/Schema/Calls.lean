import Mathlib.Data.List.Nodup
import SeedScript.Error
import SeedScript.Schema.Seeded

/-!
# Calls to a registry

Tables are registered, looked up and defined in any order. A call either adds one table behind those that
are there, or it leaves the registry as it is. A question about a name is answered from the table of that
name, or it is refused with the names there are. Main statement: after any calls, refused ones included, the
names differ and stand in the order in which they were registered, each still has the table it was
registered with, and the next call is refused for the reasons above and no others.
-/

namespace SeedScript.Schema

/-- What a registered table can be asked for. -/
inductive Question where
  | table
  | insertColumns
  | dropStatement
  | createStatement (ifNotExists : Bool)
  | triggerStatements
  | statements (fullReseed : Bool)

inductive Answer where
  | registered
  | table (t : Table)
  | text (s : String)
  | texts (ss : List String)

def Question.answer (t : Table) : Question → Answer
  | table => .table t
  | insertColumns => .texts t.insertColumns
  | dropStatement => .text (Schema.dropStatement t.name)
  | createStatement ifNotExists => .text (t.createStatement ifNotExists)
  | triggerStatements => .texts t.triggerStatements
  | statements fullReseed => .texts (t.statements fullReseed)

inductive Call where
  | register (t : Table)
  | ask (name : String) (question : Question)

theorem Table.undefinedColumns_eq_nil_iff {t : Table} :
    t.undefinedColumns = [] ↔ ∀ c ∈ t.insertColumns, c ∈ t.columnNames := by
  rw [undefinedColumns, List.filter_eq_nil_iff]
  simp

namespace Registry

variable {r r' : Registry} {t : Table} {name : String}

theorem get_eq_ok_iff : r.get name = .ok t ↔ t ∈ r.tables ∧ t.name = name := by
  have hGet : r.get name = .ok t ↔ r.tables.find? (·.name = name) = some t := by
    rw [get]
    cases r.tables.find? (·.name = name) <;> simp
  rw [hGet]
  constructor
  · intro h
    exact ⟨List.mem_of_find?_eq_some h, by simpa using List.find?_some h⟩
  · rintro ⟨hMem, rfl⟩
    cases hFind : r.tables.find? (·.name = t.name) with
    | none =>
      have hNot := List.find?_eq_none.mp hFind t hMem
      simp at hNot
    | some u =>
      have hName : u.name = t.name := by simpa using List.find?_some hFind
      rw [List.inj_on_of_nodup_map r.nodup (List.mem_of_find?_eq_some hFind) hMem hName]

theorem get_of_not_mem (h : name ∉ r.names) : r.get name = .error (.notFound name r.names) := by
  have hNone : r.tables.find? (·.name = name) = none := by
    rw [List.find?_eq_none]
    intro t hMem hName
    exact h (List.mem_map.mpr ⟨t, hMem, by simpa using hName⟩)
  rw [get, hNone]

/-- All that a registration can do. -/
theorem register_cases (r : Registry) (t : Table) :
    (t.name ∈ r.names ∧ r.register t = .error (.taken t.name)) ∨
    (t.name ∉ r.names ∧ t.undefinedColumns ≠ [] ∧
      r.register t = .error (.undefinedColumns t.name t.undefinedColumns)) ∨
    (t.name ∉ r.names ∧ t.undefinedColumns = [] ∧
      ∃ r', r.register t = .ok r' ∧ r'.tables = r.tables ++ [t]) := by
  rw [register]
  split
  · next hTaken => exact .inl ⟨hTaken, rfl⟩
  · next hFree =>
    split
    · next hDefined => exact .inr (.inr ⟨hFree, hDefined, _, rfl, rfl⟩)
    · next hUndefined => exact .inr (.inl ⟨hFree, hUndefined, rfl⟩)

theorem tables_of_register (h : r.register t = .ok r') : r'.tables = r.tables ++ [t] := by
  rcases r.register_cases t with ⟨-, hError⟩ | ⟨-, -, hError⟩ | ⟨-, -, r'', hOk, hTables⟩
  · cases h.symm.trans hError
  · cases h.symm.trans hError
  · cases h.symm.trans hOk
    exact hTables

/-- A table that is registered is found under its name. -/
theorem get_of_register (h : r.register t = .ok r') : r'.get t.name = .ok t := by
  refine get_eq_ok_iff.mpr ⟨?_, rfl⟩
  rw [tables_of_register h]
  exact List.mem_append_right _ List.mem_cons_self

def ask (r : Registry) (name : String) : Question → Except RegistryError Answer
  | .table => (r.get name).map .table
  | .insertColumns => (r.insertColumns name).map .texts
  | .dropStatement => (r.dropStatement name).map .text
  | .createStatement ifNotExists => (r.createStatement name ifNotExists).map .text
  | .triggerStatements => (r.triggerStatements name).map .texts
  | .statements fullReseed => (r.tableStatements name fullReseed).map .texts

/-- Every question is answered from the table that is found under the name. -/
theorem ask_eq (r : Registry) (name : String) (question : Question) :
    r.ask name question = (r.get name).map fun t => question.answer t := by
  cases question <;>
    simp only [ask, insertColumns, dropStatement, createStatement, triggerStatements,
      tableStatements] <;> cases r.get name <;> rfl

/-- The answer to a call, and the registry after it. -/
def serve (r : Registry) : Call → Except RegistryError Answer × Registry
  | .register t =>
    match r.register t with
    | .ok r' => (.ok .registered, r')
    | .error e => (.error e, r)
  | .ask name question => (r.ask name question, r)

def after (r : Registry) (calls : List Call) : Registry :=
  calls.foldl (fun r call => (r.serve call).2) r

/-- The table that a call adds. -/
def added? (r : Registry) : Call → Option Table
  | .register t => (r.register t).toOption.map fun _ => t
  | .ask _ _ => none

/-- The tables whose registration succeeds, in the order of the calls. -/
def addedBy (r : Registry) : List Call → List Table
  | [] => []
  | call :: calls => (r.added? call).toList ++ (r.serve call).2.addedBy calls

theorem tables_serve (r : Registry) (call : Call) :
    (r.serve call).2.tables = r.tables ++ (r.added? call).toList := by
  cases call with
  | register t =>
    rw [serve, added?]
    cases hRegister : r.register t with
    | error e => exact (List.append_nil _).symm
    | ok r' => exact tables_of_register hRegister
  | ask name question => exact (List.append_nil _).symm

theorem tables_after (r : Registry) (calls : List Call) :
    (r.after calls).tables = r.tables ++ r.addedBy calls := by
  induction calls generalizing r with
  | nil => exact (List.append_nil _).symm
  | cons call calls ih =>
    have hRest : (r.after (call :: calls)).tables = ((r.serve call).2.after calls).tables := rfl
    rw [hRest, ih, tables_serve, addedBy, List.append_assoc]

/-- No call takes a table away or puts another one in its place. -/
theorem get_after (h : r.get name = .ok t) (calls : List Call) :
    (r.after calls).get name = .ok t := by
  obtain ⟨hMem, hName⟩ := get_eq_ok_iff.mp h
  refine get_eq_ok_iff.mpr ⟨?_, hName⟩
  rw [tables_after]
  exact List.mem_append_left _ hMem

/-- A registration is refused if the name is taken or a column that is inserted is not defined, and for no
other reason; else the table is put behind the others. -/
structure Registers (r : Registry) (t : Table) (result : Except RegistryError Answer)
    (r' : Registry) : Prop where
  refused_iff : (∃ e, result = .error e) ↔
    t.name ∈ r.names ∨ ∃ c ∈ t.insertColumns, c ∉ t.columnNames
  refused : ∀ e, result = .error e → (Error.registry e).type = "ValueError" ∧ r' = r
  registered : (∀ e, result ≠ .error e) →
    result = .ok .registered ∧ r'.tables = r.tables ++ [t]

/-- A question changes nothing, and it is refused exactly if there is no table of the name. -/
structure Answers (r : Registry) (name : String) (question : Question)
    (result : Except RegistryError Answer) (r' : Registry) : Prop where
  unchanged : r' = r
  refused_iff : (∃ e, result = .error e) ↔ name ∉ r.names
  refused : ∀ e, result = .error e →
    e = .notFound name r.names ∧ (Error.registry e).type = "KeyError"
  answered : ∀ t ∈ r.tables, t.name = name → result = .ok (question.answer t)

theorem registers_serve (r : Registry) (t : Table) :
    r.Registers t (r.serve (.register t)).1 (r.serve (.register t)).2 := by
  have hUndefined : t.undefinedColumns ≠ [] ↔ ∃ c ∈ t.insertColumns, c ∉ t.columnNames := by
    simp [Table.undefinedColumns_eq_nil_iff]
  rw [serve]
  rcases r.register_cases t with ⟨hTaken, hRegister⟩ | ⟨-, hSome, hRegister⟩ |
    ⟨hFree, hNone, r', hRegister, hTables⟩
  · rw [hRegister]
    refine ⟨⟨fun _ => .inl hTaken, fun _ => ⟨_, rfl⟩⟩, ?_, fun h => absurd rfl (h _)⟩
    rintro _ ⟨⟩
    exact ⟨rfl, rfl⟩
  · rw [hRegister]
    refine ⟨⟨fun _ => .inr (hUndefined.mp hSome), fun _ => ⟨_, rfl⟩⟩, ?_, fun h => absurd rfl (h _)⟩
    rintro _ ⟨⟩
    exact ⟨rfl, rfl⟩
  · rw [hRegister]
    refine ⟨⟨?_, ?_⟩, ?_, fun _ => ⟨rfl, hTables⟩⟩
    · rintro ⟨_, ⟨⟩⟩
    · rintro (hTaken | hSome)
      · exact absurd hTaken hFree
      · exact absurd hNone (hUndefined.mpr hSome)
    · rintro _ ⟨⟩

theorem answers_serve (r : Registry) (name : String) (question : Question) :
    r.Answers name question (r.serve (.ask name question)).1 (r.serve (.ask name question)).2 := by
  rw [serve, ask_eq]
  by_cases hName : name ∈ r.names
  · obtain ⟨t, hMem, hOf⟩ := List.mem_map.mp hName
    have hGet : r.get name = .ok t := get_eq_ok_iff.mpr ⟨hMem, hOf⟩
    rw [hGet]
    refine ⟨rfl, ⟨?_, fun h => absurd hName h⟩, ?_, fun u hu hu' => ?_⟩
    · rintro ⟨_, ⟨⟩⟩
    · rintro _ ⟨⟩
    · cases hGet.symm.trans (get_eq_ok_iff.mpr ⟨hu, hu'⟩)
      rfl
  · rw [get_of_not_mem hName]
    refine ⟨rfl, ⟨fun _ => hName, fun _ => ⟨_, rfl⟩⟩, ?_, fun t hMem hOf => ?_⟩
    · rintro _ ⟨⟩
      exact ⟨rfl, rfl⟩
    · exact absurd (List.mem_map.mpr ⟨t, hMem, hOf⟩) hName

/-- Whatever is registered and asked, the names in the registry differ, those of the two seeded tables come
first and the others follow in the order of their registration, and what a name stands for stays. A
registration is refused exactly if its name is taken or it inserts a column that it does not define, a
question exactly if its name is not there, and what is refused or only asked changes nothing. -/
theorem answers_after_calls (calls : List Call) :
    (seeded.after calls).names.Nodup ∧
    (seeded.after calls).tables = [countries, banks] ++ seeded.addedBy calls ∧
    (∀ t ∈ (seeded.after calls).tables, ∀ c ∈ t.insertColumns, c ∈ t.columnNames) ∧
    (∀ name t, (seeded.after calls).get name = .ok t →
      ∀ later, (seeded.after (calls ++ later)).get name = .ok t) ∧
    (∀ t, (seeded.after calls).Registers t ((seeded.after calls).serve (.register t)).1
      (seeded.after (calls ++ [.register t]))) ∧
    ∀ name question, (seeded.after calls).Answers name question
      ((seeded.after calls).serve (.ask name question)).1
      (seeded.after (calls ++ [.ask name question])) := by
  have hAppend : ∀ later, seeded.after (calls ++ later) = (seeded.after calls).after later :=
    fun _ => List.foldl_append
  refine ⟨(seeded.after calls).nodup, tables_after seeded calls, ?_, ?_, ?_, ?_⟩
  · intro t hMem
    exact Table.undefinedColumns_eq_nil_iff.mp ((seeded.after calls).defined t hMem)
  · intro name t hGet later
    rw [hAppend]
    exact get_after hGet later
  · intro t
    rw [hAppend]
    exact registers_serve _ t
  · intro name question
    rw [hAppend]
    exact answers_serve _ name question

end Registry
end SeedScript.Schema
