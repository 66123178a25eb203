import TableMapper.Proofs.Mapper.Held
import TableMapper.Proofs.Mapper.Keyed
import TableMapper.Proofs.Outcome
import TableMapper.Proofs.Query.Lexemes

/-! # What writes say

Each write of an entity sends one statement at most. Read as a database reads it, with the parameters in
place of the placeholders, the statement assigns each column its own value and finds the row by the key,
however much the names of columns look like each other or like the placeholders of others.
-/

namespace TableMapper

open Identifier (IsName written)
open Bindings (Holds)

/-! ## Statements as lexemes -/

namespace Lexeme

variable {β γ : Type}

section

variable (spell : String → List (Lexeme β))

/-- A column, as it is spelled, equated with something. -/
def equation (cell : String × β) : List (Lexeme β) := spell cell.1 ++ chars " = " ++ [hole cell.2]

def equations (separator : String) (cells : List (String × β)) : List (Lexeme β) :=
  (chars separator).intercalate (cells.map (equation spell))

/-- An insertion that sets columns, and makes changes where the row exists. -/
def insertInto (table : String) (sets changes : List (String × β)) : List (Lexeme β) :=
  (chars " ").intercalate ([chars "INSERT INTO " ++ spell table, chars "SET " ++ equations spell ", " sets] ++
    if changes.isEmpty then [] else [chars "ON DUPLICATE KEY UPDATE " ++ equations spell ", " changes])

def updateWhere (table : String) (sets key : List (String × β)) : List (Lexeme β) :=
  (chars " ").intercalate [chars "UPDATE " ++ spell table, chars "SET " ++ equations spell ", " sets,
    chars "WHERE " ++ equations spell " AND " key]

def deleteWhere (table : String) (key : List (String × β)) : List (Lexeme β) :=
  (chars " ").intercalate [chars "DELETE FROM " ++ spell table, chars "WHERE " ++ equations spell " AND " key]

end

/-- Columns with something else in the place of what they are equated with. -/
def replace (f : β → γ) (cells : List (String × β)) : List (String × γ) := cells.map fun c => (c.1, f c.2)

/-- Columns with values that are all there. -/
def given (cells : List (String × Value)) : List (String × Option Value) := replace some cells

theorem map_intercalate (f : β → γ) (separator : String) (ls : List (List (Lexeme β))) :
    ((chars separator).intercalate ls).map (map f) = (chars separator).intercalate (ls.map (List.map (map f))) := by
  induction ls with
  | nil => rfl
  | cons l ls ih => cases ls <;> simp_all [List.intercalate_cons_cons]

theorem map_written (f : β → γ) (name : String) : (written name).map (map f) = written name := by
  have part : ∀ part, map f (Identifier.writtenPart part) = Identifier.writtenPart part := by
    intro part
    unfold Identifier.writtenPart
    split <;> rfl
  simp [written, map_intercalate, Function.comp_def, part]

theorem map_equations (f : β → γ) (separator : String) (cells : List (String × β)) :
    (equations written separator cells).map (map f) = equations written separator (replace f cells) := by
  simp [equations, map_intercalate, equation, map_written, map, replace, Function.comp_def]

theorem map_insertInto (f : β → γ) (table : String) (sets changes : List (String × β)) :
    (insertInto written table sets changes).map (map f) =
      insertInto written table (replace f sets) (replace f changes) := by
  cases changes <;> simp [insertInto, map_written, map_equations, replace]

theorem map_updateWhere (f : β → γ) (table : String) (sets key : List (String × β)) :
    (updateWhere written table sets key).map (map f) = updateWhere written table (replace f sets) (replace f key) := by
  simp [updateWhere, map_written, map_equations]

theorem map_deleteWhere (f : β → γ) (table : String) (key : List (String × β)) :
    (deleteWhere written table key).map (map f) = deleteWhere written table (replace f key) := by
  simp [deleteWhere, map_written, map_equations]

end Lexeme

open Lexeme (given)

namespace Lexing

theorem spells_equation {s : String × String} (named : IsName s.2.toList) :
    Spells (Identifier.escape s.1 ++ " = " ++ reference s.2) (Lexeme.equation written s) :=
  (Identifier.spells_escape s.1).join (spells_reference named) (by decide) (by decide) (by decide)

variable {b : Bindings} {placed : List (String × String)} {cells : List (String × Value)}

theorem spells_assignments (h : Holds b placed cells) :
    Spells (Assignments.render placed) (Lexeme.equations written ", " placed) := by
  apply spells_intercalate (by decide) (by decide) (by decide)
  simp only [List.forall₂_map_left_iff, List.forall₂_map_right_iff, List.forall₂_same]
  intro s member
  obtain ⟨v, has⟩ := h.has s member
  exact spells_equation has.named

theorem spells_comparisons (h : Holds b placed cells) :
    Spells (renderPredicates (Query.comparisons placed)) (Lexeme.equations written " AND " placed) := by
  have all : ∀ p ∈ Query.comparisons placed, p.concat = .and := by
    intro p member
    obtain ⟨s, -, rfl⟩ := List.mem_map.mp member
    rfl
  rw [renderPredicates_eq_intercalate all, Query.comparisons, List.map_map]
  apply spells_intercalate (by decide) (by decide) (by decide)
  simp only [List.forall₂_map_left_iff, List.forall₂_map_right_iff, List.forall₂_same]
  intro s member
  obtain ⟨v, has⟩ := h.has s member
  rw [Function.comp_apply, render_compare_eq]
  exact spells_equation has.named

end Lexing

/-! ## What statements say -/

namespace Query

open Lexing

variable {q : Query} {table : String} {sets changes key : List (String × Value)} {placed : List (String × String)}

/-- What a statement has for the placeholders of columns is what the bindings hold. -/
theorem replace_param?_of_holds {b : Bindings} (h : Holds b placed key) {st : Statement}
    (same : ∀ s ∈ placed, st.param? s.2 = b.get? s.2) : Lexeme.replace st.param? placed = given key := by
  rw [given, Lexeme.replace, Lexeme.replace, ← h.values]
  apply List.map_congr_left
  intro s member
  rw [same s member]

theorem bound_of_holds {b : Bindings} (h : Holds b placed key) : ∀ p ∈ placed.map (·.2), p ∈ b.placeholders := by
  intro p member
  obtain ⟨s, placed, rfl⟩ := List.mem_map.mp member
  obtain ⟨v, has⟩ := h.has s placed
  exact has.bound

theorem ne_nil_of_holds {b : Bindings} (h : Holds b placed key) (filled : key ≠ []) : placed ≠ [] := by
  rintro rfl
  exact filled (List.forall₂_nil_left_iff.mp h)

/-- An insertion sets the columns that are set to their values, and makes its changes likewise. -/
theorem filled_insert {label : Option String} (source : q.source = some (table, label)) (holds : Holds q.bindings q.sets sets)
    (changing : Holds q.bindings q.updates changes) (filled : sets ≠ []) :
    ∃ st, q.build .insert = .ok st ∧
      st.filled = Lexeme.insertInto written table (given sets) (given changes) := by
  have some := ne_nil_of_holds holds filled
  have rendered : q.clauses .insert =
      .ok ["INSERT INTO " ++ Identifier.escape table, "SET " ++ q.sets.render, q.renderUpdates] := by
    simp [clauses, target, source, renderSets, some, Bind.bind, Except.bind, pure, Except.pure]
  obtain ⟨st, built, sql, params⟩ := exists_build rendered (by
    simp only [statementPlaceholders, Assignments.placeholders, List.forall_mem_append]
    exact ⟨bound_of_holds holds, bound_of_holds changing⟩)
  simp only [statementPlaceholders, Assignments.placeholders, List.forall_mem_append, List.forall_mem_map]
    at params
  have spells : Spells st.sql (Lexeme.insertInto written table q.sets q.updates) := by
    have into := Bare.append_spells (a := "INSERT INTO ") (by decide) (Identifier.spells_escape table)
    have set := Bare.append_spells (a := "SET ") (by decide) (spells_assignments holds)
    have change := Bare.append_spells (a := "ON DUPLICATE KEY UPDATE ") (by decide) (spells_assignments changing)
    rw [sql, Write.filter_keyword rfl, Write.filter_keyword rfl]
    apply spells_intercalate (by decide) (by decide) (by decide)
    refine .cons into (.cons set ?_)
    unfold renderUpdates
    cases q.updates.isEmpty with
    | true => exact .nil
    | false =>
        rw [if_neg Bool.false_ne_true, if_neg Bool.false_ne_true, Write.filter_keyword rfl]
        exact .cons change .nil
  refine ⟨st, built, ?_⟩
  rw [Statement.filled, spells.lexemes_eq, Lexeme.map_insertInto, replace_param?_of_holds holds params.1,
    replace_param?_of_holds changing params.2]

theorem referenced_comparisons (placed : List (String × String)) :
    referenced (comparisons placed) = placed.map (·.2) := by
  have none : rawFragments (comparisons placed) = [] := by
    simp only [rawFragments, comparisons, List.filterMap_map]
    exact List.filterMap_eq_nil_iff.mpr fun _ _ => rfl
  have bound : boundPlaceholders (comparisons placed) = placed.map (·.2) := by
    rw [boundPlaceholders, comparisons, List.flatMap_map, List.map_eq_flatMap]
    rfl
  rw [referenced, none, bound, List.flatMap_nil, List.append_nil]

theorem renderWhere_comparisons (wheres : q.wheres = comparisons placed) (some : placed ≠ []) :
    q.renderWhere true = .ok ("WHERE " ++ renderPredicates (comparisons placed)) := by
  have filled : (comparisons placed).isEmpty = false := by simpa [comparisons] using some
  simp only [renderWhere, renderClause, wheres, filled, Bool.false_eq_true, and_false, if_false]
  rfl

/-- A change sets the columns that are set, where those that are compared have their values. -/
theorem filled_update (source : q.source = some (table, none)) (holds : Holds q.bindings q.sets sets)
    (wheres : q.wheres = comparisons placed) (keyed : Holds q.bindings placed key) (orders : q.orders = [])
    (limit : q.limit = .none) (filled : sets ≠ []) (some : key ≠ []) :
    ∃ st, q.build .update = .ok st ∧ st.filled = Lexeme.updateWhere written table (given sets) (given key) := by
  have rendered : q.clauses .update = .ok ["UPDATE " ++ Identifier.escape table, "SET " ++ q.sets.render,
      "WHERE " ++ renderPredicates (comparisons placed), "", ""] := by
    simp [clauses, target, source, renderSets, ne_nil_of_holds holds filled, orders, limit, renderOrder,
      Limit.render, Limit.none, renderWhere_comparisons wheres (ne_nil_of_holds keyed some), Bind.bind,
      Except.bind, pure, Except.pure]
  obtain ⟨st, built, sql, params⟩ := exists_build rendered (by
    simp only [statementPlaceholders, Assignments.placeholders, wheres, referenced_comparisons,
      List.forall_mem_append]
    exact ⟨bound_of_holds holds, bound_of_holds keyed⟩)
  simp only [statementPlaceholders, Assignments.placeholders, wheres, referenced_comparisons,
    List.forall_mem_append, List.forall_mem_map] at params
  have spells : Spells st.sql (Lexeme.updateWhere written table q.sets placed) := by
    have update := Bare.append_spells (a := "UPDATE ") (by decide) (Identifier.spells_escape table)
    have set := Bare.append_spells (a := "SET ") (by decide) (spells_assignments holds)
    have where' := Bare.append_spells (a := "WHERE ") (by decide) (spells_comparisons keyed)
    rw [sql, Write.filter_keyword rfl, Write.filter_keyword rfl, Write.filter_keyword rfl]
    apply spells_intercalate (by decide) (by decide) (by decide)
    exact .cons update (.cons set (.cons where' .nil))
  refine ⟨st, built, ?_⟩
  rw [Statement.filled, spells.lexemes_eq, Lexeme.map_updateWhere, replace_param?_of_holds holds params.1,
    replace_param?_of_holds keyed params.2]

theorem filled_delete (source : q.source = some (table, none)) (wheres : q.wheres = comparisons placed)
    (keyed : Holds q.bindings placed key) (orders : q.orders = []) (limit : q.limit = .none) (some : key ≠ []) :
    ∃ st, q.build .delete = .ok st ∧ st.filled = Lexeme.deleteWhere written table (given key) := by
  have rendered : q.clauses .delete = .ok ["DELETE FROM " ++ Identifier.escape table,
      "WHERE " ++ renderPredicates (comparisons placed), "", ""] := by
    simp [clauses, target, source, orders, limit, renderOrder, Limit.render, Limit.none,
      renderWhere_comparisons wheres (ne_nil_of_holds keyed some), Bind.bind, Except.bind, pure, Except.pure]
  obtain ⟨st, built, sql, params⟩ := exists_build rendered (by
    simp only [statementPlaceholders, wheres, referenced_comparisons]
    exact bound_of_holds keyed)
  simp only [statementPlaceholders, wheres, referenced_comparisons, List.forall_mem_map] at params
  have spells : Spells st.sql (Lexeme.deleteWhere written table placed) := by
    have delete := Bare.append_spells (a := "DELETE FROM ") (by decide) (Identifier.spells_escape table)
    have where' := Bare.append_spells (a := "WHERE ") (by decide) (spells_comparisons keyed)
    rw [sql, Write.filter_keyword rfl, Write.filter_keyword rfl]
    apply spells_intercalate (by decide) (by decide) (by decide)
    exact .cons delete (.cons where' .nil)
  refine ⟨st, built, ?_⟩
  rw [Statement.filled, spells.lexemes_eq, Lexeme.map_deleteWhere, replace_param?_of_holds keyed params]

end Query

namespace Write

open Entity

variable {α : Type} [Entity α] {sets changes key : List (String × Value)}

theorem qualify_update_injective : Function.Injective (Identifier.qualify (some "update")) := by
  intro c d same
  rw [qualify_update, qualify_update] at same
  exact (String.append_right_inj _).mp same

/-- Assigning columns changes what is assigned and bound and nothing else. -/
theorem addSets_beside (sets : List (String × Value)) :
    addSets sets (tableQuery α) = { tableQuery α with
      sets := (addSets sets (tableQuery α)).sets
      bindings := (addSets sets (tableQuery α)).bindings } := by
  rw [addSets_eq]

theorem assign_ne_nil (xs : Assignments) (field placeholder : String) : xs.assign field placeholder ≠ [] := by
  cases xs with
  | nil => exact List.cons_ne_nil _ _
  | cons x xs =>
      unfold Assignments.assign
      split <;> exact List.cons_ne_nil _ _

/-- What is set in a query stays set, and more may be set. -/
theorem sets_addSets_ne_nil {q : Query} (filled : q.sets ≠ [] ∨ sets ≠ []) : (addSets sets q).sets ≠ [] := by
  induction sets generalizing q with
  | nil => exact filled.resolve_right (fun some => some rfl)
  | cons cell sets ih =>
      have set : (q.addSet cell.1 cell.2).sets ≠ [] := assign_ne_nil _ _ _
      exact ih (.inl set)

theorem holds_addSets (distinct : (sets.map (·.1)).Nodup) :
    Holds (addSets sets (tableQuery α)).bindings (addSets sets (tableQuery α)).sets sets ∧
      (addSets sets (tableQuery α)).bindings.shared.map (·.1) ⊆ sets.map (·.1) := by
  obtain ⟨placed, all, holds, -, sharing⟩ := Assignments.holds_assignAll (a := []) (b := .empty)
    Function.injective_id distinct (fun _ _ => List.not_mem_nil) (fun _ _ => List.not_mem_nil)
  rw [List.nil_append] at all
  subst all
  rw [addSets_eq]
  refine ⟨holds, ?_⟩
  have only : (Bindings.empty.shared.map fun s => s.1) = [] := rfl
  rwa [List.map_id, only, List.append_nil] at sharing

/-- Changes are bound for fields with a dot in them, which the columns that are set do not have. -/
theorem exists_insertion (filled : sets ≠ []) (distinct : (sets.map (·.1)).Nodup)
    (distinct' : (changes.map (·.1)).Nodup) (undotted : ∀ c ∈ sets.map (·.1), '.' ∉ c.toList) :
    ∃ st, (addUpdates changes (addSets sets (tableQuery α))).build .insert = .ok st ∧
      st.filled = Lexeme.insertInto written (table α) (given sets) (given changes) := by
  obtain ⟨holds, sharing⟩ := holds_addSets (α := α) distinct
  have source : (addSets sets (tableQuery α)).source = some (table α, none) :=
    congrArg Query.source (addSets_beside sets)
  have updates : (addSets sets (tableQuery α)).updates = [] := congrArg Query.updates (addSets_beside sets)
  have unshared : ∀ c ∈ changes.map (·.1), Identifier.qualify (some "update") c ∉
      (addSets sets (tableQuery α)).bindings.shared.map (·.1) := by
    intro c _ taken
    rw [qualify_update] at taken
    exact undotted _ (sharing taken) (by simp)
  obtain ⟨placed, all, changing, later, -⟩ := Assignments.holds_assignAll (a := [])
    qualify_update_injective distinct' (fun _ _ => List.not_mem_nil) unshared
  rw [List.nil_append] at all
  rw [addUpdates_eq, updates]
  exact Query.filled_insert source (holds.extends later) (by rwa [all]) filled

theorem exists_change (filled : sets ≠ []) (keyed : key ≠ []) (distinct : (sets.map (·.1)).Nodup) :
    ∃ st, (do (← addConditions key (addSets sets (tableQuery α))).build .update) = .ok st ∧
      st.filled = Lexeme.updateWhere written (table α) (given sets) (given key) := by
  obtain ⟨holds, -⟩ := holds_addSets (α := α) distinct
  obtain ⟨placed, b, added, compared, later⟩ := Query.holds_addAllEqual key (addSets sets (tableQuery α))
  rw [addConditions_eq, added, addSets_beside]
  exact Query.filled_update rfl (holds.extends later) rfl compared rfl rfl filled keyed

theorem exists_deletion (keyed : key ≠ []) :
    ∃ st, (do (← addConditions key (tableQuery α)).build .delete) = .ok st ∧
      st.filled = Lexeme.deleteWhere written (table α) (given key) := by
  obtain ⟨placed, b, added, compared, -⟩ := Query.holds_addAllEqual key (tableQuery α)
  rw [addConditions_eq, added]
  exact Query.filled_delete rfl rfl compared rfl rfl keyed

/-! ### Nothing to write -/

theorem insertion_of_empty (changes : List (String × Value)) :
    (addUpdates changes (addSets [] (tableQuery α))).build .insert = .error .emptySetClause := by
  rw [addUpdates_eq]
  rfl

theorem change_of_empty (key : List (String × Value)) :
    (do (← addConditions key (addSets [] (tableQuery α))).build .update) = .error .emptySetClause := by
  obtain ⟨placed, b, added, -, -⟩ := Query.holds_addAllEqual key (addSets [] (tableQuery α))
  rw [addConditions_eq, added]
  rfl

theorem change_of_keyless (filled : sets ≠ []) :
    (do (← addConditions [] (addSets sets (tableQuery α))).build .update) = .error .emptyWhereClause := by
  have some : (addSets sets (tableQuery α)).sets ≠ [] := sets_addSets_ne_nil (.inr filled)
  have source : (addSets sets (tableQuery α)).source = .some (table α, none) :=
    congrArg Query.source (addSets_beside sets)
  have wheres : (addSets sets (tableQuery α)).wheres = [] := congrArg Query.wheres (addSets_beside sets)
  change (addSets sets (tableQuery α)).build .update = _
  simp [Query.build, Query.clauses, Query.target, source, Query.renderSets, some, Query.renderWhere, wheres,
    Bind.bind, Except.bind]

theorem deletion_of_keyless :
    (do (← addConditions [] (tableQuery α)).build .delete) = (.error .emptyWhereClause : Except Error Statement) :=
  rfl

/-! ### Statements of entities -/

section

variable {e : α} (distinct : ((values e).map (·.1)).Nodup)

include distinct

theorem filled_upsertStatement (undotted : ∀ c ∈ (values e).map (·.1), '.' ∉ c.toList) :
    (upsertStatement e).map Statement.filled =
      if insertValues e = [] then .error .emptySetClause
      else .ok (Lexeme.insertInto written (table α) (given (insertValues e)) (given (conflictValues e))) := by
  obtain ⟨p, changed⟩ := conflictValues_eq_filter e
  unfold upsertStatement
  split
  · next empty => rw [empty, insertion_of_empty]; rfl
  · next filled =>
    have distinct' : ((conflictValues e).map (·.1)).Nodup := changed ▸ nodup_filter_columns distinct p
    obtain ⟨st, built, said⟩ := exists_insertion (α := α) filled (nodup_filter_columns distinct _) distinct'
      fun c member => undotted c (filter_columns_subset _ c member)
    rw [built, Except.map, said]

theorem filled_insertStatement (undotted : ∀ c ∈ (values e).map (·.1), '.' ∉ c.toList) :
    (insertStatement e).map Statement.filled =
      if insertValues e = [] then .error .emptySetClause
      else .ok (Lexeme.insertInto written (table α) (given (insertValues e)) []) := by
  unfold insertStatement
  split
  · next empty => rw [empty]; exact congrArg _ (insertion_of_empty [])
  · next filled =>
    have unchanged : (([] : List (String × Value)).map (·.1)).Nodup := List.nodup_nil
    obtain ⟨st, built, said⟩ := exists_insertion (α := α) filled (nodup_filter_columns distinct _) unchanged
      fun c member => undotted c (filter_columns_subset _ c member)
    change (addSets (insertValues e) (tableQuery α)).build .insert = _ at built
    rw [built, Except.map, said]
    rfl

theorem filled_updateStatement :
    (updateStatement e).map Statement.filled =
      if updateValues e = [] then .error .emptySetClause
      else if keyValues e = [] then .error .emptyWhereClause
      else .ok (Lexeme.updateWhere written (table α) (given (updateValues e)) (given (keyValues e))) := by
  have columns : ((updateValues e).map (·.1)).Nodup := nodup_filter_columns distinct _
  unfold updateStatement
  split
  · next empty => rw [empty, change_of_empty]; rfl
  · next filled =>
    split
    · next keyless => rw [keyless, change_of_keyless filled]; rfl
    · next keyed =>
      obtain ⟨st, built, said⟩ := exists_change (α := α) filled keyed columns
      rw [built, Except.map, said]

end

theorem filled_deleteStatement (e : α) :
    (deleteStatement e).map Statement.filled =
      if keyValues e = [] then .error .emptyWhereClause
      else .ok (Lexeme.deleteWhere written (table α) (given (keyValues e))) := by
  unfold deleteStatement
  split
  · next keyless => rw [keyless, deletion_of_keyless]; rfl
  · next keyed =>
    obtain ⟨st, built, said⟩ := exists_deletion (α := α) keyed
    rw [built, Except.map, said]

end Write

/-! ## What is sent -/

namespace Executor

variable {σ β : Type}

/-- An executor that runs statements like another and keeps a list of them. -/
def recording (x : Executor σ) : Executor (σ × List Statement) where
  execute st := ExceptT.mk fun s => (((x.execute st).run.run s.1).1, ((x.execute st).run.run s.1).2, s.2 ++ [st])
  fetchAll st := ExceptT.mk fun s => (((x.fetchAll st).run.run s.1).1, ((x.fetchAll st).run.run s.1).2, s.2 ++ [st])

/-- The statements that some work sends to an executor. -/
def sent (x : Executor σ) (s : σ)
    (work : Executor (σ × List Statement) → Access (σ × List Statement) β) : List Statement :=
  ((work x.recording).run.run (s, [])).2.2

/-- Work on one statement sends it if it is built, and nothing otherwise. -/
theorem filled_sent (x : Executor σ) (s : σ) (built : Except Error Statement) (after : ExecuteResult → β) :
    (x.sent s fun x => do let result ← x.execute (← Access.ofExcept built); pure (after result)).map
      Statement.filled = (built.map Statement.filled).toOption.toList := by
  cases built with
  | error e => rw [sent, Access.run_of_error rfl]; rfl
  | ok st => rw [sent, Access.run_execute rfl]; rfl

end Executor

namespace Write

open Entity

variable {α : Type} [Entity α] {σ : Type}

/-- Each write of an entity with distinct columns sends one statement, or none when there is nothing to set or
no key to find the row by. An insertion sets the columns that are inserted and, for an existing row, changes
those beside the key, or the key if there are no others; a change and a deletion find the row by the whole key.
Every column has its own value. It is named as it is written, which is by itself unless it is the star or has
backticks at its ends. Without a key, a change and a deletion fail before the executor is called. -/
theorem sent_filled (x : Executor σ) (s : σ) (e : α) (distinct : ((values e).map (·.1)).Nodup)
    (undotted : ∀ c ∈ (values e).map (·.1), '.' ∉ c.toList) :
    (∀ c, Identifier.Plain c → written c = [.name c (β := Option Value)]) ∧
    (x.sent s (insert · e)).map Statement.filled =
      (if insertValues e = [] then []
      else [Lexeme.insertInto written (table α) (given (insertValues e)) []]) ∧
    (x.sent s (upsert · e)).map Statement.filled =
      (if insertValues e = [] then []
      else [Lexeme.insertInto written (table α) (given (insertValues e))
        (given (if updateValues e = [] then keyValues e else updateValues e))]) ∧
    (x.sent s (update · e)).map Statement.filled =
      (if updateValues e = [] ∨ keyValues e = [] then []
      else [Lexeme.updateWhere written (table α) (given (updateValues e)) (given (keyValues e))]) ∧
    (x.sent s (delete · e)).map Statement.filled =
      (if keyValues e = [] then [] else [Lexeme.deleteWhere written (table α) (given (keyValues e))]) ∧
    (primaryKey α = [] → (∃ err, (update x e).run.run s = (.error err, s)) ∧
      ∃ err, (delete x e).run.run s = (.error err, s)) := by
  have inserted := filled_insertStatement distinct undotted
  have upserted := filled_upsertStatement distinct undotted
  have updated := filled_updateStatement distinct
  have deleted := filled_deleteStatement e
  have changes : conflictValues e = if updateValues e = [] then keyValues e else updateValues e := by
    simp [conflictValues]
  refine ⟨fun c plain => Identifier.written_of_plain plain, ?_, ?_, ?_, ?_, ?_⟩
  · refine (x.filled_sent s (insertStatement e) fun r => (r, afterInsert e r)).trans ?_
    rw [inserted]
    split <;> rfl
  · refine (x.filled_sent s (upsertStatement e) fun r => (r, afterUpsert e r)).trans ?_
    rw [upserted, changes]
    split <;> rfl
  · refine (x.filled_sent s (updateStatement e) (·.rowsAffected)).trans ?_
    rw [updated]
    by_cases updateValues e = [] <;> by_cases keyValues e = [] <;> simp_all [Except.toOption]
  · refine (x.filled_sent s (deleteStatement e) (·.rowsAffected)).trans ?_
    rw [deleted]
    split <;> rfl
  · intro keyless
    have none : keyValues e = [] := by simp [keyValues, keyless]
    constructor
    · obtain ⟨err, failed⟩ : ∃ err, (updateStatement e).map Statement.filled = .error err := by
        rw [updated, none]
        split
        · exact ⟨_, rfl⟩
        · exact ⟨_, rfl⟩
      exact ⟨err, Access.run_of_error (error_of_map failed) _ s⟩
    · rw [if_pos none] at deleted
      exact ⟨_, Access.run_of_error (error_of_map deleted) _ s⟩

/-- A table whose columns make the same names for placeholders, or are called like those of others. -/
def lookalikes : RecordType :=
  { table := "pair"
    fields := ["a-b", "a_b", "a_b_1", "x", "update_x"].map fun column =>
      { column, name := column, type := ⟨.text, false⟩, primary := column == "a-b" }
    cacheStart := "pair" }

def lookalike : Record lookalikes := ⟨["1", "2", "3", "4", "5"].map .text, rfl, rfl, rfl, rfl, rfl, trivial⟩

/-- An executor that has nothing to say. -/
def mute : Executor Unit := ⟨fun _ => pure ⟨1, none⟩, fun _ => pure []⟩

theorem sent_filled_lookalike :
    ((values lookalike).map (·.1)).Nodup ∧ (∀ c ∈ (values lookalike).map (·.1), '.' ∉ c.toList) ∧
      (mute.sent () (update · lookalike)).map Statement.filled =
        [Lexeme.updateWhere written "pair" (given [("a_b", .text "2"), ("a_b_1", .text "3"), ("x", .text "4"),
          ("update_x", .text "5")]) (given [("a-b", .text "1")])] := by
  have distinct : ((values lookalike).map (·.1)).Nodup := by decide
  have undotted : ∀ c ∈ (values lookalike).map (·.1), '.' ∉ c.toList := by decide
  refine ⟨distinct, undotted, ?_⟩
  obtain ⟨-, -, -, updated, -⟩ := sent_filled mute () lookalike distinct undotted
  exact updated

-- the placeholders are numbered where they would be the same
example : (upsertStatement lookalike).map (·.sql) =
    .ok ("INSERT INTO \x60pair\x60 SET \x60a-b\x60 = :a_b, \x60a_b\x60 = :a_b_1, \x60a_b_1\x60 = :a_b_1_1, " ++
      "\x60x\x60 = :x, \x60update_x\x60 = :update_x ON DUPLICATE KEY UPDATE \x60a_b\x60 = :update_a_b, " ++
      "\x60a_b_1\x60 = :update_a_b_1, \x60x\x60 = :update_x_1, \x60update_x\x60 = :update_update_x") := by
  decide +kernel

/-- A table with a column that is called like another one in backticks. -/
def twins : RecordType :=
  { table := "t"
    fields := ["a", "\x60a\x60"].map fun column => { column, name := column, type := ⟨.text, false⟩ }
    cacheStart := "t" }

def twin : Record twins := ⟨["1", "2"].map .text, rfl, rfl, trivial⟩

/-- Not every column is named by itself: without the backticks at its ends one may be named like another,
which is then set twice. -/
theorem not_sent_by_name :
    ¬ ∀ (t : RecordType) (r : Record t), ((values r).map (·.1)).Nodup →
      (∀ c ∈ (values r).map (·.1), '.' ∉ c.toList) → insertValues r ≠ [] →
        (mute.sent () (insert · r)).map Statement.filled =
          [Lexeme.insertInto (fun c => [.name c]) (table (Record t)) (given (insertValues r)) []] := by
  intro every
  have named := every twins twin (by decide) (by decide) (by decide)
  have sent : (mute.sent () (insert · twin)).map Statement.filled =
      [Lexeme.insertInto (fun c => [.name c]) "t" (given [("a", .text "1"), ("a", .text "2")]) []] := by
    decide +kernel
  rw [sent] at named
  exact absurd named (by decide +kernel)

end Write

end TableMapper
