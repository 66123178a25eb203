import TableMapper.Proofs.Query.Assigned
import TableMapper.Shop

/-! # Writes that are sent

A write of an entity sends one statement, if its columns leave something to set and something to find the row by.
Otherwise the statement is refused before the executor is called. Which it is depends on the columns alone: on which
of them are in the key, and which one the database numbers. Main statement: `sends_iff`.
-/

namespace TableMapper

open Identifier (written)
open Bindings (Holds)
open Lexeme (given)

namespace Query

/-- An insertion that sets something is built, and says what stands under the placeholders of its fields. -/
theorem Reachable.exists_insert {q : Query} (reached : q.Reachable) {table : String} {label : Option String}
    (source : q.source = some (table, label)) (filled : q.sets ≠ []) :
    ∃ st row changes, q.build .insert = .ok st ∧
      st.filled = Lexeme.insertInto written table (given row) (given changes) ∧
      given row = q.sets.map (fun x => (x.1, q.bindings.get? x.2)) ∧
      given changes = q.updates.map fun x => (x.1, q.bindings.get? x.2) := by
  have consistent := reached.supplied.consistent
  obtain ⟨row, holds, rowShown⟩ := exists_holds consistent reached.wellFormed.sets reached.supplied.sets
  obtain ⟨changes, changing, changesShown⟩ :=
    exists_holds consistent reached.wellFormed.updates reached.supplied.updates
  have some : row ≠ [] := by
    rintro rfl
    exact filled (List.map_eq_nil_iff.mp rowShown.symm)
  obtain ⟨st, built, said⟩ := filled_insert source holds changing some
  exact ⟨st, row, changes, built, said, rowShown, changesShown⟩

end Query

namespace Write

open Entity

variable {α : Type} [Entity α] {sets changes key : List (String × Value)}

/-! ## Statements that are built -/

/-- The assignments of columns and of changes. -/
def assigned (sets changes : List (String × Value)) : List Assigned :=
  sets.map (fun c => ⟨.row, c.1, c.2⟩) ++ changes.map fun c => ⟨.changes, c.1, c.2⟩

theorem addUpdates_addSets_eq (sets changes : List (String × Value)) :
    addUpdates changes (addSets sets (tableQuery α)) = Query.assigning (table α) none (assigned sets changes) := by
  rw [assigned, Query.assigning, List.map_append, List.map_map, List.map_map, Query.performAll, List.foldl_append,
    List.foldl_map, List.foldl_map]
  rfl

theorem reachable_addUpdates (sets changes : List (String × Value)) :
    (addUpdates changes (addSets sets (tableQuery α))).Reachable := by
  rw [addUpdates_addSets_eq]
  exact Query.reachable_assigning ..

theorem sets_ne_nil (filled : sets ≠ []) (changes : List (String × Value)) :
    (addUpdates changes (addSets sets (tableQuery α))).sets ≠ [] := by
  rw [addUpdates_eq]
  exact sets_addSets_ne_nil (.inr filled)

/-- An insertion says for each column the value that was last bound for it. -/
theorem exists_insertStatement (filled : sets ≠ []) (changes : List (String × Value)) :
    ∃ st row altered, (addUpdates changes (addSets sets (tableQuery α))).build .insert = .ok st ∧
      st.filled = Lexeme.insertInto written (table α) (given row) (given altered) ∧
      given row = Assigned.bound .row (assigned sets changes) ∧
      given altered = Assigned.bound .changes (assigned sets changes) := by
  have some := sets_ne_nil (α := α) filled changes
  have reached := reachable_addUpdates (α := α) sets changes
  rw [addUpdates_addSets_eq] at some reached ⊢
  have follows := Query.follows_assigning (table α) none (assigned sets changes)
  obtain ⟨st, row, altered, built, said, rowShown, alteredShown⟩ := reached.exists_insert follows.source some
  exact ⟨st, row, altered, built, said, rowShown.trans (follows.bound_eq .row),
    alteredShown.trans (follows.bound_eq .changes)⟩

theorem exists_updateStatement (filled : sets ≠ []) (keyed : key ≠ []) :
    ∃ st, (do (← addConditions key (addSets sets (tableQuery α))).build .update) = .ok st := by
  have reached : (addSets sets (tableQuery α)).Reachable := reachable_addUpdates sets []
  obtain ⟨cells, holds, shown⟩ :=
    Query.exists_holds reached.supplied.consistent reached.wellFormed.sets reached.supplied.sets
  have some : cells ≠ [] := by
    rintro rfl
    exact sets_addSets_ne_nil (.inr filled) (List.map_eq_nil_iff.mp shown.symm)
  obtain ⟨placed, b, added, compared, later⟩ := Query.holds_addAllEqual key (addSets sets (tableQuery α))
  rw [addConditions_eq, added, addSets_beside]
  have held := holds.extends later
  apply Exists.imp fun st built => And.left built
  exact Query.filled_update rfl held rfl compared rfl rfl some keyed

/-! ## Columns that are left -/

theorem insertValues_ne_nil_iff (e : α) :
    insertValues e ≠ [] ↔ ∃ c ∈ (values e).map (·.1), some c ≠ autoIncrement α := by
  simp [insertValues]

theorem updateValues_ne_nil_iff (e : α) :
    updateValues e ≠ [] ↔ ∃ c ∈ (values e).map (·.1), c ∉ primaryKey α := by
  simp [updateValues]

theorem keyValues_ne_nil_iff (e : α) : keyValues e ≠ [] ↔ ∃ c ∈ (values e).map (·.1), c ∈ primaryKey α := by
  simp [keyValues]

/-! ## What is sent -/

/-- The writes of an entity. -/
inductive Kind where
  | insert | upsert | update | delete
  deriving DecidableEq

namespace Kind

variable {σ : Type}

def statement (e : α) : Kind → Except Error Statement
  | insert => insertStatement e
  | upsert => upsertStatement e
  | update => updateStatement e
  | delete => deleteStatement e

def perform (x : Executor σ) (e : α) : Kind → Access σ Unit
  | insert => do let _ ← Write.insert x e
  | upsert => do let _ ← Write.upsert x e
  | update => do let _ ← Write.update x e
  | delete => do let _ ← Write.delete x e

/-- The columns of an entity leave something to set, and something to find the row by. -/
def Possible (e : α) : Kind → Prop
  | insert | upsert => ∃ c ∈ (values e).map (·.1), some c ≠ autoIncrement α
  | update => (∃ c ∈ (values e).map (·.1), c ∉ primaryKey α) ∧ ∃ c ∈ (values e).map (·.1), c ∈ primaryKey α
  | delete => ∃ c ∈ (values e).map (·.1), c ∈ primaryKey α

theorem perform_eq (x : Executor σ) (e : α) (w : Kind) :
    w.perform x e = (do let _ ← x.execute (← Access.ofExcept (w.statement e)); pure ()) := by
  cases w <;> simp [perform, statement, Write.insert, Write.upsert, Write.update, Write.delete]

theorem exists_statement (e : α) {w : Kind} (possible : w.Possible e) : ∃ st, w.statement e = .ok st := by
  cases w with
  | insert =>
      obtain ⟨st, _, _, built, -⟩ := exists_insertStatement (α := α) ((insertValues_ne_nil_iff e).mpr possible) []
      exact ⟨st, built⟩
  | upsert =>
      obtain ⟨st, _, _, built, -⟩ :=
        exists_insertStatement (α := α) ((insertValues_ne_nil_iff e).mpr possible) (conflictValues e)
      exact ⟨st, built⟩
  | update =>
      obtain ⟨filled, keyed⟩ := possible
      exact exists_updateStatement ((updateValues_ne_nil_iff e).mpr filled) ((keyValues_ne_nil_iff e).mpr keyed)
  | delete =>
      obtain ⟨st, built, -⟩ := exists_deletion (α := α) ((keyValues_ne_nil_iff e).mpr possible)
      exact ⟨st, built⟩

/-- Why a write is refused: there is nothing to set, or nothing to find the row by. -/
def Refused (err : Error) : Prop := err = .emptySetClause ∨ err = .emptyWhereClause

theorem refused_of_not_possible (e : α) {w : Kind} (impossible : ¬ w.Possible e) :
    ∃ err, Refused err ∧ w.statement e = .error err := by
  cases w with
  | insert =>
      have none : insertValues e = [] := by
        by_contra filled
        exact impossible ((insertValues_ne_nil_iff e).mp filled)
      refine ⟨_, .inl rfl, ?_⟩
      rw [statement, insertStatement, none]
      exact insertion_of_empty []
  | upsert =>
      have none : insertValues e = [] := by
        by_contra filled
        exact impossible ((insertValues_ne_nil_iff e).mp filled)
      refine ⟨_, .inl rfl, ?_⟩
      rw [statement, upsertStatement, none, insertion_of_empty]
  | update =>
      by_cases filled : updateValues e = []
      · refine ⟨_, .inl rfl, ?_⟩
        rw [statement, updateStatement, filled, change_of_empty]
      · have keyless : keyValues e = [] := by
          by_contra keyed
          exact impossible ⟨(updateValues_ne_nil_iff e).mp filled, (keyValues_ne_nil_iff e).mp keyed⟩
        refine ⟨_, .inr rfl, ?_⟩
        rw [statement, updateStatement, keyless, change_of_keyless filled]
  | delete =>
      have keyless : keyValues e = [] := by
        by_contra keyed
        exact impossible ((keyValues_ne_nil_iff e).mp keyed)
      refine ⟨_, .inr rfl, ?_⟩
      rw [statement, deleteStatement, keyless, deletion_of_keyless]

/-- A write of an entity is built, and its statement is what the executor is called with, exactly when the columns
leave something to set and something to find the row by. Otherwise the executor is not called. -/
theorem sends_iff (x : Executor σ) (s : σ) (e : α) (w : Kind) :
    ((∃ st, w.statement e = .ok st ∧ x.sent s (w.perform · e) = [st]) ↔ w.Possible e) ∧
      (¬ w.Possible e → x.sent s (w.perform · e) = [] ∧
        ∃ err, Refused err ∧ (w.perform x e).run.run s = (.error err, s)) := by
  have refused (impossible : ¬ w.Possible e) : x.sent s (w.perform · e) = [] ∧
      ∃ err, Refused err ∧ (w.perform x e).run.run s = (.error err, s) := by
    obtain ⟨err, reason, failed⟩ := refused_of_not_possible e impossible
    simp only [Executor.sent, perform_eq]
    refine ⟨?_, err, reason, Access.run_of_error failed (fun _ => ()) s⟩
    rw [Access.run_of_error failed (fun _ => ())]
  refine ⟨?_, refused⟩
  constructor
  · intro sends
    obtain ⟨st, -, sent⟩ := sends
    by_contra impossible
    rw [(refused impossible).1] at sent
    cases sent
  · intro possible
    obtain ⟨st, built⟩ := exists_statement e possible
    refine ⟨st, built, ?_⟩
    simp only [Executor.sent, perform_eq]
    rw [Access.run_execute built (fun _ => ())]
    rfl

end Kind

/-- A role of a user has a column beside its key, which can be changed. -/
theorem sends_user_role :
    Kind.update.Possible (Record.new Shop.userRole) ∧
      ∃ st, Kind.update.statement (Record.new Shop.userRole) = .ok st ∧
        mute.sent () (Kind.update.perform · (Record.new Shop.userRole)) = [st] := by
  have possible : Kind.update.Possible (Record.new Shop.userRole) :=
    ⟨⟨"granted_at", by decide +kernel⟩, "role", by decide +kernel⟩
  exact ⟨possible, (Kind.sends_iff mute () (Record.new Shop.userRole) .update).1.mpr possible⟩

/-- A link of tags, which has no columns beside its key, can be put in place of itself but not changed. -/
theorem not_always_sends :
    primaryKey (Record Shop.tagLink) ≠ [] ∧
      (∃ st, Kind.upsert.statement (Record.new Shop.tagLink) = .ok st) ∧
      mute.sent () (Kind.update.perform · (Record.new Shop.tagLink)) = [] ∧
      (Kind.update.perform mute (Record.new Shop.tagLink)).run.run () = (.error .emptySetClause, ()) := by
  have keyed : primaryKey (Record Shop.tagLink) ≠ [] := by decide +kernel
  have upserted : Kind.upsert.Possible (Record.new Shop.tagLink) :=
    ⟨"left_id", by decide +kernel, Option.some_ne_none _⟩
  exact ⟨keyed, Kind.exists_statement _ upserted, rfl, rfl⟩

end Write

end TableMapper
