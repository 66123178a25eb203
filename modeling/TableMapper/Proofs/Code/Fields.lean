import Mathlib.Data.List.Forall2
import TableMapper.Code.Table
import TableMapper.Proofs.KeyMap
import TableMapper.Proofs.Outcome

/-! # Fields of tables

A table of generated code has one field for each column, in order. Main statement: `exists_build_iff` says
which columns a model can be given: those of known types that come to different fields, and among which every
rule and every join of the model finds the one that it is about.
-/

namespace TableMapper.CodeTable

variable {m : LinkedModel} {columns : List SchemaColumn}

/-- A field is the one for a column. -/
def IsFieldOf (m : TableModel) (c : SchemaColumn) (f : CodeField) : Prop :=
  ∃ type, ColumnType.read c.type = .ok type ∧ f = field m c type

theorem fieldsAfter_eq_ok {m : TableModel} {seen : List String} {fields : List CodeField} :
    fieldsAfter m seen columns = .ok fields ↔
      List.Forall₂ (IsFieldOf m) columns fields ∧ (fields.map (·.plainName)).Nodup ∧
        ∀ f ∈ fields, f.plainName ∉ seen := by
  induction columns generalizing seen fields with
  | nil =>
      simp only [fieldsAfter, Except.ok.injEq, List.forall₂_nil_left_iff]
      grind
  | cons c columns ih =>
      rw [fieldsAfter, List.forall₂_cons_left_iff]
      cases known : ColumnType.read c.type with
      | error fault => simp [IsFieldOf, known]
      | ok type =>
          simp only [IsFieldOf, known, Except.ok.injEq, exists_eq_left']
          split
          · next taken =>
            simp only [reduceCtorEq, false_iff]
            rintro ⟨⟨_, _, rfl, -, rfl⟩, -, fresh⟩
            exact fresh _ (List.mem_cons_self ..) (List.contains_iff_mem.mp taken)
          · next free =>
            rw [List.contains_iff_mem] at free
            constructor
            · intro built
              cases rest : fieldsAfter m ((field m c type).plainName :: seen) columns with
              | error e => simp [rest, Except.map] at built
              | ok others =>
                  simp only [rest, Except.map, Except.ok.injEq] at built
                  obtain ⟨made, apart, fresh⟩ := ih.mp rest
                  subst built
                  have first : ∀ g ∈ others, g.plainName ≠ (field m c type).plainName :=
                    fun g member same => fresh g member (same ▸ List.mem_cons_self ..)
                  refine ⟨⟨_, others, rfl, made, rfl⟩, ?_, ?_⟩
                  · rw [List.map_cons, List.nodup_cons]
                    exact ⟨by simpa using first, apart⟩
                  · rw [List.forall_mem_cons]
                    exact ⟨free, fun g member taken => fresh g member (List.mem_cons_of_mem _ taken)⟩
            · rintro ⟨⟨_, others, rfl, made, rfl⟩, apart, fresh⟩
              rw [List.map_cons, List.nodup_cons] at apart
              rw [List.forall_mem_cons] at fresh
              have rest : fieldsAfter m ((field m c type).plainName :: seen) columns = .ok others := by
                refine ih.mpr ⟨made, apart.2, fun g member taken => ?_⟩
                rcases List.mem_cons.mp taken with same | taken
                · exact apart.1 (same ▸ List.mem_map_of_mem member)
                · exact fresh.2 g member taken
              rw [rest]
              rfl

theorem checkRules_eq_ok {m : TableModel} {fields : List CodeField} :
    checkRules m fields = .ok () ↔ ∀ name ∈ m.rules.keys, isKnown m fields name = true := by
  unfold checkRules
  split
  · next name found =>
    have := List.find?_some found
    have := List.mem_of_find?_eq_some found
    grind
  · next found => simpa using found

theorem checkJoins_eq_ok {fields : List CodeField} :
    checkJoins m fields = .ok () ↔ ∀ j ∈ m.joins, startsWell m.toTableModel fields j = true := by
  unfold checkJoins
  split
  · next join found =>
    have := List.find?_some found
    have := List.mem_of_find?_eq_some found
    grind
  · next found => simpa using found

/-- What a table is built with, and what it is built to. -/
theorem build_eq_ok {t : CodeTable} : build m columns = .ok t ↔
    t.model = m ∧ List.Forall₂ (IsFieldOf m.toTableModel) columns t.fields ∧
      (t.fields.map (·.plainName)).Nodup ∧
      (∀ name ∈ m.rules.keys, isKnown m.toTableModel t.fields name = true) ∧
      ∀ j ∈ m.joins, startsWell m.toTableModel t.fields j = true := by
  rw [← checkRules_eq_ok, ← checkJoins_eq_ok]
  constructor
  · intro built
    obtain ⟨fields, made, built⟩ := exists_of_bind built
    obtain ⟨⟨⟩, ruled, built⟩ := exists_of_bind built
    obtain ⟨⟨⟩, joined, built⟩ := exists_of_bind built
    cases built
    obtain ⟨ofColumns, apart, -⟩ := fieldsAfter_eq_ok.mp made
    exact ⟨rfl, ofColumns, apart, ruled, joined⟩
  · rintro ⟨rfl, ofColumns, apart, ruled, joined⟩
    have made : fieldsAfter t.model.toTableModel [] columns = .ok t.fields :=
      fieldsAfter_eq_ok.mpr ⟨ofColumns, apart, fun _ _ => List.not_mem_nil⟩
    simp only [build, made, bind, Except.bind, ruled, joined]

/-! ## Columns that a model can be given -/

theorem columns_of_fields {m : TableModel} {fields : List CodeField}
    (made : List.Forall₂ (IsFieldOf m) columns fields) : fields.map (·.column) = columns.map (·.name) := by
  induction made with
  | nil => rfl
  | cons first _ ih =>
      obtain ⟨type, -, rfl⟩ := first
      exact congrArg (_ :: ·) ih

theorem plainNames_of_fields {m : TableModel} {fields : List CodeField}
    (made : List.Forall₂ (IsFieldOf m) columns fields) :
    fields.map (·.plainName) = columns.map fun c => Code.plainName (m.stripPrefix c.name) := by
  induction made with
  | nil => rfl
  | cons first _ ih =>
      obtain ⟨type, -, rfl⟩ := first
      exact congrArg (_ :: ·) ih

theorem exists_fields_iff {m : TableModel} :
    (∃ fields, List.Forall₂ (IsFieldOf m) columns fields) ↔
      ∀ c ∈ columns, ∃ type, ColumnType.read c.type = .ok type := by
  rw [exists_forall₂_iff]
  apply forall₂_congr
  intro c _
  constructor
  · rintro ⟨f, type, known, -⟩
    exact ⟨type, known⟩
  · rintro ⟨type, known⟩
    exact ⟨field m c type, type, known, rfl⟩

/-- Whether some field has a column with a property shows in the columns. -/
theorem any_fields {m : TableModel} {fields : List CodeField}
    (made : List.Forall₂ (IsFieldOf m) columns fields) (p : String → Bool) :
    fields.any (fun f => p f.column) = true ↔ ∃ c ∈ columns, p c.name = true := by
  have same : fields.any (fun f => p f.column) = columns.any fun c => p c.name := by
    simpa only [List.any_map, Function.comp_def] using congrArg (List.any · p) (columns_of_fields made)
  rw [same, List.any_eq_true]

/-- Columns are right for a model: their types are known, they come to different fields, every rule is about
one of them, and every join that starts from the table starts from one of them. -/
structure Fits (m : LinkedModel) (columns : List SchemaColumn) : Prop where
  typed : ∀ c ∈ columns, ∃ type, ColumnType.read c.type = .ok type
  apart : (columns.map fun c => Code.plainName (m.stripPrefix c.name)).Nodup
  ruled : ∀ name ∈ m.rules.keys, ∃ c ∈ columns, c.name = name ∨ m.stripPrefix c.name = name
  joined : ∀ j ∈ m.joins, j.localAlias = m.table → ∃ c ∈ columns, c.name = j.localField

theorem exists_build_iff : (∃ t, build m columns = .ok t) ↔ Fits m columns := by
  have about (fields : List CodeField) (made : List.Forall₂ (IsFieldOf m.toTableModel) columns fields) :
      ((fields.map (·.plainName)).Nodup ∧
        (∀ name ∈ m.rules.keys, isKnown m.toTableModel fields name = true) ∧
        ∀ j ∈ m.joins, startsWell m.toTableModel fields j = true) ↔
      (columns.map fun c => Code.plainName (m.stripPrefix c.name)).Nodup ∧
        (∀ name ∈ m.rules.keys, ∃ c ∈ columns, c.name = name ∨ m.stripPrefix c.name = name) ∧
        ∀ j ∈ m.joins, j.localAlias = m.table → ∃ c ∈ columns, c.name = j.localField := by
    have known (name : String) := any_fields made fun column => column == name || m.stripPrefix column == name
    have starts (field : String) := any_fields made fun column => column == field
    simp only [Bool.or_eq_true, beq_iff_eq] at known starts
    simp only [plainNames_of_fields made, isKnown, known, startsWell, Bool.or_eq_true, bne_iff_ne, starts,
      ← imp_iff_not_or]
  simp only [build_eq_ok]
  constructor
  · rintro ⟨t, -, made, checks⟩
    obtain ⟨apart, ruled, joined⟩ := (about t.fields made).mp checks
    exact ⟨exists_fields_iff.mp ⟨_, made⟩, apart, ruled, joined⟩
  · rintro ⟨typed, apart, ruled, joined⟩
    obtain ⟨fields, made⟩ := exists_fields_iff.mpr typed
    exact ⟨⟨m, fields⟩, rfl, made, (about fields made).mpr ⟨apart, ruled, joined⟩⟩

end TableMapper.CodeTable
