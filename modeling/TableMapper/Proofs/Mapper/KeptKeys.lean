import TableMapper.Proofs.KeyMap
import TableMapper.Proofs.Mapper.Sending

/-! # Keys of rows that are put in place

An insertion that changes a row which is there already assigns the columns beside the key. In a table of nothing but
keys it assigns the key again, which keeps the row where it is as long as the new row was given the same key. It is
not given the column that the database numbers. Main statement: `upsert_keeps_key_iff`.
-/

namespace TableMapper

open Identifier (written)
open Lexeme (given)

/-! ## What is bound last -/

namespace Assigned

theorem nodup_fields (part : InsertPart) (as : List Assigned) : (fields part as).Nodup := by
  induction as using List.reverseRecOn with
  | nil => exact List.nodup_nil
  | append_singleton as a ih =>
      by_cases same : a.part = part
      · subst same
        rw [fields_concat]
        split
        · exact ih
        · next new =>
          rw [← List.concat_eq_append]
          exact ih.concat new
      · rwa [fields_concat_of_ne same]

theorem last?_append (p : Assigned → Bool) (as bs : List Assigned) :
    last? p (as ++ bs) = (last? p bs).or (last? p as) := by
  simp only [last?, List.reverse_append, List.find?_append]
  cases bs.reverse.find? p <;> rfl

theorem last?_map {p : Assigned → Bool} {place : String × Value → Assigned} {key : String}
    (under : ∀ c, p (place c) = (key == c.1)) (value : ∀ c, (place c).value = c.2) (cells : List (String × Value)) :
    last? p (cells.map place) = cells.reverse.lookup key := by
  rw [last?, ← List.map_reverse]
  induction cells.reverse with
  | nil => rfl
  | cons c cells ih =>
      rw [List.map_cons, List.find?_cons, under, List.lookup_cons]
      cases key == c.1 with
      | true => exact congrArg some (value c)
      | false => exact ih

end Assigned

namespace Write

open Assigned (bound last? isUnder)

variable {sets changes : List (String × Value)}

theorem last?_row (key : String) (cells : List (String × Value)) :
    last? (isUnder key) (cells.map fun c => ⟨.row, c.1, c.2⟩) = cells.reverse.lookup key := by
  refine Assigned.last?_map (fun c => ?_) (fun _ => rfl) cells
  rw [Bool.eq_iff_iff, Assigned.isUnder_iff, beq_iff_eq]
  exact eq_comm

theorem last?_changes (c : String) (cells : List (String × Value)) :
    last? (isUnder (InsertPart.changes.key c)) (cells.map fun c => ⟨.changes, c.1, c.2⟩) =
      cells.reverse.lookup c := by
  refine Assigned.last?_map (fun d => ?_) (fun _ => rfl) cells
  rw [Bool.eq_iff_iff, Assigned.isUnder_iff, beq_iff_eq]
  exact Assigned.key_changes_injective.eq_iff.trans eq_comm

theorem last?_changes_of_apart {key : String} {cells : List (String × Value)}
    (apart : ∀ d ∈ cells.map (·.1), key ≠ InsertPart.changes.key d) :
    last? (isUnder key) (cells.map fun c => ⟨.changes, c.1, c.2⟩) = none := by
  rw [Assigned.last?_eq_none_iff, List.forall_mem_map]
  intro c member
  rw [← Bool.not_eq_true, Assigned.isUnder_iff]
  exact fun same => apart c.1 (List.mem_map_of_mem member) same.symm

/-! ## Columns of the statement -/

theorem mem_given_iff {c : String} {v : Value} {cells : List (String × Value)} :
    (c, some v) ∈ given cells ↔ (c, v) ∈ cells := by
  simp [given, Lexeme.replace]

theorem mem_bound_iff {part : InsertPart} {c : String} {v : Option Value} {as : List Assigned} :
    (c, v) ∈ bound part as ↔ c ∈ Assigned.fields part as ∧ last? (isUnder (part.key c)) as = v := by
  simp only [bound, List.mem_map, Prod.mk.injEq]
  constructor
  · rintro ⟨d, member, rfl, value⟩
    exact ⟨member, value⟩
  · rintro ⟨member, value⟩
    exact ⟨c, member, rfl, value⟩

theorem nodup_of_given {part : InsertPart} {as : List Assigned} {cells : List (String × Value)}
    (said : given cells = bound part as) : (cells.map (·.1)).Nodup := by
  have names : cells.map (·.1) = Assigned.fields part as := by
    have shown := congrArg (List.map (·.1)) said
    simpa [given, Lexeme.replace, bound, Function.comp_def] using shown
  rw [names]
  exact Assigned.nodup_fields part as

theorem mem_fields_row_iff {c : String} :
    c ∈ Assigned.fields .row (assigned sets changes) ↔ c ∈ sets.map (·.1) := by
  simp [Assigned.fields, assigned]

theorem mem_fields_changes_iff {c : String} :
    c ∈ Assigned.fields .changes (assigned sets changes) ↔ c ∈ changes.map (·.1) := by
  simp [Assigned.fields, assigned]

theorem last?_assigned_changes {c : String} (member : c ∈ changes.map (·.1)) :
    last? (isUnder (InsertPart.changes.key c)) (assigned sets changes) = changes.reverse.lookup c := by
  have found : changes.reverse.lookup c ≠ none := by
    simpa [List.lookup_eq_none_iff, List.mem_map] using member
  obtain ⟨v, last⟩ := Option.ne_none_iff_exists'.mp found
  rw [assigned, Assigned.last?_append, last?_changes, last, Option.some_or]

theorem last?_assigned_row {c : String} (apart : ∀ d ∈ changes.map (·.1), c ≠ InsertPart.changes.key d) :
    last? (isUnder c) (assigned sets changes) = sets.reverse.lookup c := by
  rw [assigned, Assigned.last?_append, last?_changes_of_apart apart, Option.none_or, last?_row]

/-! ## Keys of the row -/

open Entity

variable {α : Type} [Entity α]

/-- What is changed in the key is set to the same value in a new row. -/
def RepeatsKey (α : Type) [Entity α] (row altered : List (String × Value)) : Prop :=
  ∀ c ∈ primaryKey α, ∀ v, (c, v) ∈ altered → (c, v) ∈ row

/-- A row after columns were changed. -/
def overwrite (altered : List (String × Value)) (old : String → Value) (c : String) : Value :=
  (altered.lookup c).getD (old c)

/-- A row that has what a new row is given of the key has the same key after the changes. -/
def KeepsKey (α : Type) [Entity α] (row altered : List (String × Value)) : Prop :=
  ∀ old : String → Value, (∀ c ∈ primaryKey α, ∀ v, (c, v) ∈ row → old c = v) →
    ∀ c ∈ primaryKey α, overwrite altered old c = old c

theorem keepsKey_iff_repeatsKey {row altered : List (String × Value)} (distinct : (row.map (·.1)).Nodup)
    (distinct' : (altered.map (·.1)).Nodup) : KeepsKey α row altered ↔ RepeatsKey α row altered := by
  constructor
  · intro keeps c key v changed
    -- a row with the values of the new one, and in all other columns something else than what is changed
    obtain ⟨other, differ⟩ : ∃ other : Value, other ≠ v := by
      by_cases none : v = .null
      · exact ⟨.bool true, none ▸ Value.noConfusion⟩
      · exact ⟨.null, Ne.symm none⟩
    have same := keeps (fun d => (row.lookup d).getD other) (fun d _ w member => by
      rw [(lookup_eq_some_iff_mem distinct).mpr member, Option.getD_some]) c key
    rw [overwrite, (lookup_eq_some_iff_mem distinct').mpr changed, Option.getD_some] at same
    cases found : row.lookup c with
    | none =>
        rw [found] at same
        exact absurd same.symm differ
    | some w =>
        rw [found] at same
        exact mem_of_lookup_eq_some (found.trans (congrArg some same.symm))
  · intro repeats old agree c key
    rw [overwrite]
    cases found : altered.lookup c with
    | none => rfl
    | some v => exact (agree c key v (repeats c key v (mem_of_lookup_eq_some found))).symm

/-- In a table of nothing but keys, a new row is given all columns, with the values that they are changed to: a column
named like the field that another one is changed under has the value of that one. -/
def KeyInserted (e : α) : Prop :=
  updateValues e = [] → ∀ c ∈ (values e).map (·.1), some c ≠ autoIncrement α ∧
    ∀ d ∈ (values e).map (·.1), c = Identifier.qualify (some "update") d →
      (values e).reverse.lookup c = (values e).reverse.lookup d

theorem conflictValues_of_empty {e : α} (none : updateValues e = []) : conflictValues e = values e := by
  have keyed : keyValues e = values e := by
    simp only [updateValues, List.filter_eq_nil_iff, Bool.not_eq_true', Bool.not_eq_false] at none
    exact List.filter_eq_self.mpr none
  simp [conflictValues, none, keyed]

theorem mem_primaryKey_of_empty {e : α} (none : updateValues e = []) {c : String}
    (member : c ∈ (values e).map (·.1)) : c ∈ primaryKey α := by
  by_contra beside
  exact (updateValues_ne_nil_iff e).mpr ⟨c, member, beside⟩ none

theorem mem_insertValues_iff {e : α} {c : String} :
    c ∈ (insertValues e).map (·.1) ↔ c ∈ (values e).map (·.1) ∧ some c ≠ autoIncrement α := by
  simp [insertValues]

theorem not_mem_updateValues_of_key (e : α) {c : String} (keyed : c ∈ primaryKey α) :
    c ∉ (updateValues e).map (·.1) := by
  simp [updateValues, keyed]

section

variable {e : α} {row altered : List (String × Value)}
  (rowSaid : given row = bound .row (assigned (insertValues e) (conflictValues e)))
  (alteredSaid : given altered = bound .changes (assigned (insertValues e) (conflictValues e)))

include rowSaid alteredSaid

theorem keyInserted_of_repeatsKey (repeats : RepeatsKey α row altered) : KeyInserted e := by
  intro none c member
  rw [conflictValues_of_empty none] at rowSaid alteredSaid
  obtain ⟨v, last⟩ : ∃ v, (values e).reverse.lookup c = some v := by
    rw [← Option.ne_none_iff_exists']
    simpa [List.lookup_eq_none_iff] using member
  have changed : (c, v) ∈ altered := by
    rw [← mem_given_iff, alteredSaid, mem_bound_iff, mem_fields_changes_iff, last?_assigned_changes member]
    exact ⟨member, last⟩
  have set := repeats c (mem_primaryKey_of_empty none member) v changed
  rw [← mem_given_iff, rowSaid, mem_bound_iff, mem_fields_row_iff, mem_insertValues_iff] at set
  obtain ⟨⟨-, unnumbered⟩, value⟩ := set
  refine ⟨unnumbered, fun d other named => ?_⟩
  subst named
  rw [last, ← value]
  exact last?_assigned_changes other

theorem repeatsKey_of_keyInserted (inserted : KeyInserted e) : RepeatsKey α row altered := by
  intro c keyed v changed
  rw [← mem_given_iff, alteredSaid, mem_bound_iff, mem_fields_changes_iff] at changed
  obtain ⟨member, value⟩ := changed
  rw [last?_assigned_changes member] at value
  by_cases none : updateValues e = []
  · rw [conflictValues_of_empty none] at rowSaid member value
    obtain ⟨unnumbered, alike⟩ := inserted none c member
    rw [← mem_given_iff, rowSaid, mem_bound_iff, mem_fields_row_iff, mem_insertValues_iff]
    refine ⟨⟨member, unnumbered⟩, ?_⟩
    by_cases apart : ∀ d ∈ (values e).map (·.1), c ≠ InsertPart.changes.key d
    · have kept : (some c != autoIncrement α) = true := bne_iff_ne.mpr unnumbered
      rw [InsertPart.key, last?_assigned_row apart, insertValues, ← List.filter_reverse]
      exact (lookup_filter_keys (p := fun c => some c != autoIncrement α) kept _).trans value
    · simp only [not_forall, not_not] at apart
      obtain ⟨d, other, rfl⟩ := apart
      rw [← value, alike d other rfl]
      exact last?_assigned_changes other
  · -- where columns may change beside the key, the key is not changed
    have changes : conflictValues e = updateValues e := by simp [conflictValues, none]
    rw [changes] at member
    exact absurd member (not_mem_updateValues_of_key e keyed)

end

/-- An insertion that changes the row which is there already is refused if there is nothing to set. Otherwise what it
changes in the key is what a new row is given, and a row with the key of the new one keeps its own, exactly if there are
columns beside the key or a new row is given all of it. -/
theorem upsert_keeps_key_iff (e : α) :
    (insertValues e = [] ∧ upsertStatement e = .error .emptySetClause) ∨
      ∃ st row altered, upsertStatement e = .ok st ∧
        st.filled = Lexeme.insertInto written (table α) (given row) (given altered) ∧
        (RepeatsKey α row altered ↔ KeyInserted e) ∧ (KeepsKey α row altered ↔ KeyInserted e) := by
  by_cases none : insertValues e = []
  · left
    refine ⟨none, ?_⟩
    rw [upsertStatement, none, insertion_of_empty]
  · right
    obtain ⟨st, row, altered, built, said, rowSaid, alteredSaid⟩ :=
      exists_insertStatement (α := α) none (conflictValues e)
    have repeats : RepeatsKey α row altered ↔ KeyInserted e :=
      ⟨keyInserted_of_repeatsKey rowSaid alteredSaid, repeatsKey_of_keyInserted rowSaid alteredSaid⟩
    have distinct := nodup_of_given rowSaid
    have distinct' := nodup_of_given alteredSaid
    exact ⟨st, row, altered, built, said, repeats, (keepsKey_iff_repeatsKey distinct distinct').trans repeats⟩

/-- A link of tags is put in place of itself. -/
theorem upsert_keeps_key_tag_link :
    ∃ st row altered, upsertStatement (Record.new Shop.tagLink) = .ok st ∧
      st.filled = Lexeme.insertInto written "tag_link" (given row) (given altered) ∧
      RepeatsKey (Record Shop.tagLink) row altered ∧ KeepsKey (Record Shop.tagLink) row altered := by
  have inserted : KeyInserted (Record.new Shop.tagLink) := fun _ => by decide +kernel
  obtain ⟨none, -⟩ | ⟨st, row, altered, built, said, repeats, keeps⟩ :=
    upsert_keeps_key_iff (Record.new Shop.tagLink)
  · exact absurd none (by decide +kernel)
  · exact ⟨st, row, altered, built, said, repeats.mpr inserted, keeps.mpr inserted⟩

/-- Tickets under their tenants and numbers, which the database gives out. -/
def tickets : RecordType :=
  { table := "ticket"
    fields :=
      [{ column := "tenant", name := "tenant", type := ⟨.integer .int64, false⟩, primary := true },
       { column := "id", name := "id", type := ⟨.integer .int64, false⟩, primary := true, autoIncrement := true }]
    cacheStart := "ticket" }

def ticket : Record tickets := ⟨[.integer (.zero .int64), .integer (.one .int64)], rfl, rfl, trivial⟩

/-- A new ticket is not given the number that the ticket which is there is changed to. -/
theorem upsert_moves_ticket :
    (upsertStatement ticket).map (·.sql) = .ok ("INSERT INTO \x60ticket\x60 SET \x60tenant\x60 = :tenant " ++
        "ON DUPLICATE KEY UPDATE \x60tenant\x60 = :update_tenant, \x60id\x60 = :update_id") ∧
      (upsertStatement ticket).map Statement.filled = .ok (Lexeme.insertInto written "ticket"
        (given [("tenant", .integer (.zero .int64))])
        (given [("tenant", .integer (.zero .int64)), ("id", .integer (.one .int64))])) ∧
      ¬ RepeatsKey (Record tickets) [("tenant", .integer (.zero .int64))]
        [("tenant", .integer (.zero .int64)), ("id", .integer (.one .int64))] ∧
      ¬ KeepsKey (Record tickets) [("tenant", .integer (.zero .int64))]
        [("tenant", .integer (.zero .int64)), ("id", .integer (.one .int64))] := by
  have moved : ¬ RepeatsKey (Record tickets) [("tenant", .integer (.zero .int64))]
      [("tenant", .integer (.zero .int64)), ("id", .integer (.one .int64))] := by
    intro repeats
    have set := repeats "id" (by decide +kernel) (.integer (.one .int64)) (by decide +kernel)
    exact absurd set (by decide +kernel)
  refine ⟨by decide +kernel, by decide +kernel, moved, fun keeps => moved ?_⟩
  exact (keepsKey_iff_repeatsKey (by decide) (by decide)).mp keeps

end Write

end TableMapper
