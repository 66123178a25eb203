import TableMapper.Mapper.Select
import TableMapper.Mapper.Write
import TableMapper.Proofs.Query.Freshness
import TableMapper.Proofs.Query.Identifier

/-! # The statements of mappers

What a mapper sends, spelled out: statements that insert, change, delete and look up a row of a table,
each written in terms of the table's name and the columns with their values. They are what the query
operations build when the names of table and columns are plain and the columns distinct.
-/

namespace TableMapper

open Identifier (IsName quoted)

/-! ## Statements spelled out -/

namespace Statement

/-- `column = :column` for columns with values, the placeholders behind a common start. -/
def equations (start : String) (cells : List (String × Value)) : List String :=
  cells.map fun (c, _) => quoted c ++ " = " ++ reference (start ++ c)

def insertInto (table : String) (cells : List (String × Value)) : Statement :=
  ⟨" ".intercalate ["INSERT INTO " ++ quoted table, "SET " ++ ", ".intercalate (equations "" cells)], cells⟩

/-- The statement that inserts a row, or changes the row that is in its place. -/
def insertOrChange (table : String) (cells changes : List (String × Value)) : Statement :=
  ⟨" ".intercalate ["INSERT INTO " ++ quoted table, "SET " ++ ", ".intercalate (equations "" cells),
      "ON DUPLICATE KEY UPDATE " ++ ", ".intercalate (equations "update_" changes)],
    cells ++ changes.map fun (c, v) => ("update_" ++ c, v)⟩

def updateWhere (table : String) (cells key : List (String × Value)) : Statement :=
  ⟨" ".intercalate ["UPDATE " ++ quoted table, "SET " ++ ", ".intercalate (equations "" cells),
      "WHERE " ++ " AND ".intercalate (equations "" key)], cells ++ key⟩

def deleteWhere (table : String) (key : List (String × Value)) : Statement :=
  ⟨" ".intercalate ["DELETE FROM " ++ quoted table, "WHERE " ++ " AND ".intercalate (equations "" key)], key⟩

def selectWhere (table : String) (columns : List String) (key : List (String × Value)) : Statement :=
  ⟨" ".intercalate ["SELECT " ++ ", ".intercalate (columns.map quoted), "FROM " ++ quoted table,
      "WHERE " ++ " AND ".intercalate (key.map fun (c, _) =>
        quoted table ++ "." ++ quoted c ++ " = " ++ reference (table ++ "_" ++ c))],
    key.map fun (c, v) => (table ++ "_" ++ c, v)⟩

end Statement

/-! ## Binding under free names -/

namespace Bindings

theorem bindFresh_of_free {b : Bindings} {field base : String} (v : Value)
    (named : Identifier.placeholderBase field = base) (free : base ∉ b.placeholders) :
    b.bindFresh field v = (base, { b with entries := b.entries ++ [⟨base, field, v⟩] }) := by
  simp only [bindFresh, named, allocate_of_free free]

theorem lookup_of_not_mem {entries : List (String × String)} {key : String}
    (h : key ∉ entries.map (·.1)) : entries.lookup key = none := by
  refine List.lookup_eq_none_iff.2 fun e he => ?_
  exact bne_iff_ne.2 fun same => h (List.mem_map.2 ⟨e, he, same.symm⟩)

/-- A field without a shared placeholder takes its base, if that is free, and shares it from then on. -/
theorem bindShared_of_free {b : Bindings} {field base : String} (v : Value)
    (named : Identifier.placeholderBase field = base) (free : base ∉ b.placeholders)
    (new : field ∉ b.shared.map (·.1)) :
    b.bindShared field v = (base, ⟨b.entries ++ [⟨base, field, v⟩], (field, base) :: b.shared⟩) := by
  simp only [bindShared, lookup_of_not_mem new, bindFresh_of_free v named free]

end Bindings

theorem Assignments.assign_of_not_mem {a : Assignments} {field : String} (placeholder : String)
    (new : field ∉ a.map (·.1)) : a.assign field placeholder = a ++ [(field, placeholder)] := by
  induction a with
  | nil => rfl
  | cons first rest ih =>
      obtain ⟨other, old⟩ := first
      simp only [List.map_cons, List.mem_cons, not_or] at new
      rw [Assignments.assign, if_neg (Ne.symm new.1), ih new.2]
      rfl

/-! ## Assignments and conditions -/

/-- The bindings of columns with their values, each for a field and under a placeholder made of its name. -/
def bindingsOf (field place : String → String) (cells : List (String × Value)) : List Binding :=
  cells.map fun (c, v) => ⟨place c, field c, v⟩

/-- Assigns columns in turn, each to the placeholder that a field made of its name shares. -/
def Assignments.assignAll (field : String → String) :
    List (String × Value) → Assignments → Bindings → Assignments × Bindings
  | [], a, b => (a, b)
  | (c, v) :: cells, a, b =>
    assignAll field cells (a.assign c (b.bindShared (field c) v).1) (b.bindShared (field c) v).2

/-- Columns that are new, with free names for their placeholders, are assigned and bound in order. -/
theorem Assignments.assignAll_eq (field place : String → String) (oneField : Function.Injective field)
    (onePlace : Function.Injective place) {cells : List (String × Value)} {a : Assignments} {b : Bindings}
    (distinct : (cells.map (·.1)).Nodup)
    (named : ∀ c ∈ cells.map (·.1), Identifier.placeholderBase (field c) = place c)
    (free : ∀ c ∈ cells.map (·.1), place c ∉ b.placeholders)
    (unshared : ∀ c ∈ cells.map (·.1), field c ∉ b.shared.map (·.1))
    (unset : ∀ c ∈ cells.map (·.1), c ∉ a.map (·.1)) :
    a.assignAll field cells b =
      (a ++ cells.map fun (c, _) => (c, place c),
        ⟨b.entries ++ bindingsOf field place cells,
          (cells.map fun (c, _) => (field c, place c)).reverse ++ b.shared⟩) := by
  induction cells generalizing a b with
  | nil => simp only [assignAll, bindingsOf, List.map_nil, List.append_nil, List.reverse_nil, List.nil_append]
  | cons cell cells ih =>
      obtain ⟨c, v⟩ := cell
      simp only [List.map_cons, List.forall_mem_cons, List.nodup_cons] at distinct named free unshared unset
      have other : ∀ d ∈ cells.map (·.1), d ≠ c := fun d hd same => distinct.1 (same ▸ hd)
      simp only [assignAll, Bindings.bindShared_of_free v named.1 free.1 unshared.1,
        assign_of_not_mem _ unset.1]
      rw [ih distinct.2 named.2]
      · simp only [bindingsOf, List.map_cons, List.reverse_cons, List.append_assoc, List.cons_append,
          List.nil_append]
      · intro d hd
        simp only [Bindings.placeholders, List.map_append, List.map_cons, List.map_nil, List.mem_append,
          List.mem_singleton, not_or]
        exact ⟨free.2 d hd, fun same => other d hd (onePlace same)⟩
      · intro d hd
        simp only [List.map_cons, List.mem_cons, not_or]
        exact ⟨fun same => other d hd (oneField same), unshared.2 d hd⟩
      · intro d hd
        simp only [List.map_append, List.map_cons, List.map_nil, List.mem_append, List.mem_singleton, not_or]
        exact ⟨unset.2 d hd, other d hd⟩

namespace Query

/-- Adds conditions that columns, of a table if one is given, have given values. -/
def addAllEqual (table : Option String) : List (String × Value) → Query → Except Error Query
  | [], q => .ok q
  | (c, v) :: cells, q => (q.addWhere { Condition.eq c v with table }).bind (addAllEqual table cells)

/-- The predicates of such conditions. -/
def equalPredicates (column place : String → String) (cells : List (String × Value)) : List Predicate :=
  cells.map fun (c, _) => ⟨.and, .compare (column c) .eq (place c)⟩

/-- Conditions with free names for their placeholders are added and bound in order. -/
theorem addAllEqual_eq {table : Option String} (column place : String → String)
    (onePlace : Function.Injective place) {cells : List (String × Value)} {q : Query}
    (distinct : (cells.map (·.1)).Nodup)
    (named : ∀ c ∈ cells.map (·.1), Identifier.placeholderBase (Identifier.qualify table c) = place c)
    (escaped : ∀ c ∈ cells.map (·.1), Identifier.escape (Identifier.qualify table c) = column c)
    (free : ∀ c ∈ cells.map (·.1), place c ∉ q.bindings.placeholders) :
    q.addAllEqual table cells = .ok { q with
      wheres := q.wheres ++ equalPredicates column place cells
      bindings := { q.bindings with
        entries := q.bindings.entries ++ bindingsOf (Identifier.qualify table) place cells } } := by
  induction cells generalizing q with
  | nil => simp only [addAllEqual, equalPredicates, bindingsOf, List.map_nil, List.append_nil]
  | cons cell cells ih =>
      obtain ⟨c, v⟩ := cell
      simp only [List.map_cons, List.forall_mem_cons, List.nodup_cons] at distinct named escaped free
      have step : q.addWhere { Condition.eq c v with table } = .ok { q with
          wheres := q.wheres ++ [⟨.and, .compare (column c) .eq (place c)⟩]
          bindings := { q.bindings with
            entries := q.bindings.entries ++ [⟨place c, Identifier.qualify table c, v⟩] } } := by
        simp only [addWhere, Condition.bind, Condition.eq, Operator.takesLiteral, Bool.false_eq_true,
          if_false, Bindings.bind, if_true, Bindings.bindFresh_of_free v named.1 free.1, escaped.1]
      simp only [addAllEqual, step, Except.bind]
      rw [ih distinct.2 named.2 escaped.2]
      · simp only [equalPredicates, bindingsOf, List.map_cons, List.append_assoc, List.cons_append,
          List.nil_append]
      · intro d hd
        simp only [Bindings.placeholders, List.map_append, List.map_cons, List.map_nil, List.mem_append,
          List.mem_singleton, not_or]
        exact ⟨free.2 d hd, fun same => distinct.1 (onePlace same ▸ hd)⟩

/-- A query whose statement refers to its bindings, each in turn, builds with all of them. -/
theorem build_of_all_bound {q : Query} {kind : StatementKind} {clauses : List String}
    (rendered : q.clauses kind = .ok clauses)
    (referred : q.statementPlaceholders kind = q.bindings.placeholders) :
    q.build kind = .ok ⟨" ".intercalate (clauses.filter fun c => !c.isEmpty),
      q.bindings.entries.map fun b => (b.placeholder, b.value)⟩ := by
  have bound : (q.bindings.placeholders.find? fun name => !q.bindings.contains name) = none := by
    refine List.find?_eq_none.2 fun name member => ?_
    rw [Bindings.contains_iff.2 member]
    exact Bool.false_ne_true
  have all : (q.bindings.entries.filter fun b => q.bindings.placeholders.contains b.placeholder) =
      q.bindings.entries := by
    refine List.filter_eq_self.2 fun b member => ?_
    exact List.contains_iff_mem.2 (List.mem_map.2 ⟨b, member, rfl⟩)
  simp only [build, rendered, referred, Bind.bind, Except.bind, bound, all]

end Query

/-! ## What the mappers build -/

theorem render_compare_eq (column placeholder : String) :
    (Term.compare column .eq placeholder).render = column ++ " = " ++ reference placeholder := by
  apply String.toList_injective
  simp only [Term.render, Operator.sql, String.toList_append, List.append_assoc]
  rfl

/-- Conditions attached with AND have the word between them. -/
theorem renderPredicates_eq_intercalate {ps : List Predicate} (all : ∀ p ∈ ps, p.concat = .and) :
    renderPredicates ps = " AND ".intercalate (ps.map (·.term.render)) := by
  have joined : ∀ first rest, " AND ".intercalate (first :: rest) =
      first ++ String.join (rest.map fun text => " AND " ++ text) := by
    intro first rest
    induction rest generalizing first with
    | nil => simp only [String.intercalate_singleton, List.map_nil, String.join_nil, String.append_empty]
    | cons second rest ih =>
        rw [String.intercalate_cons_cons, ih, List.map_cons, String.join_cons]
        simp only [String.append_assoc]
  cases ps with
  | nil => rfl
  | cons p ps =>
      rw [List.map_cons, joined, renderPredicates, List.map_map]
      refine congrArg (fun texts => _ ++ String.join texts) (List.map_congr_left fun q member => ?_)
      rw [all q (List.mem_cons_of_mem _ member)]
      rfl

theorem renderPredicates_equal (column place : String → String) (cells : List (String × Value)) :
    renderPredicates (Query.equalPredicates column place cells) =
      " AND ".intercalate (cells.map fun (c, _) => column c ++ " = " ++ reference (place c)) := by
  rw [renderPredicates_eq_intercalate, Query.equalPredicates, List.map_map]
  · exact congrArg _ (List.map_congr_left fun cell _ => render_compare_eq _ _)
  · intro p member
    obtain ⟨cell, -, rfl⟩ := List.mem_map.mp member
    rfl

theorem Assignments.render_eq (place : String → String) {cells : List (String × Value)}
    (named : ∀ c ∈ cells.map (·.1), IsName c.toList) :
    Assignments.render (cells.map fun (c, _) => (c, place c)) =
      ", ".intercalate (cells.map fun (c, _) => quoted c ++ " = " ++ reference (place c)) := by
  rw [Assignments.render, List.map_map]
  refine congrArg _ (List.map_congr_left fun cell member => ?_)
  simp only [Function.comp_apply, Identifier.escape_eq_quoted (named _ (List.mem_map_of_mem member))]

namespace Write

theorem addSets_eq (cells : List (String × Value)) (q : Query) :
    addSets cells q =
      { q with
        sets := (q.sets.assignAll id cells q.bindings).1
        bindings := (q.sets.assignAll id cells q.bindings).2 } := by
  induction cells generalizing q with
  | nil => rfl
  | cons cell cells ih => exact ih (q.addSet cell.1 cell.2)

theorem addUpdates_eq (cells : List (String × Value)) (q : Query) :
    addUpdates cells q =
      { q with
        updates := (q.updates.assignAll (Identifier.qualify (some "update")) cells q.bindings).1
        bindings := (q.updates.assignAll (Identifier.qualify (some "update")) cells q.bindings).2 } := by
  induction cells generalizing q with
  | nil => rfl
  | cons cell cells ih => exact ih (q.addUpdate cell.1 cell.2)

theorem addConditions_eq (cells : List (String × Value)) (q : Query) :
    addConditions cells q = q.addAllEqual none cells := by
  induction cells generalizing q with
  | nil => rfl
  | cons cell cells ih => exact congrArg (Except.bind (q.addWhere (.eq cell.1 cell.2))) (funext ih)

end Write

theorem Select.addEqual_eq (table : String) (cells : List (String × Value)) (q : Query) :
    Select.addEqual table cells q = q.addAllEqual (some table) cells := by
  induction cells generalizing q with
  | nil => rfl
  | cons cell cells ih =>
      exact congrArg (Except.bind (q.addWhere { Condition.eq cell.1 cell.2 with table := some table }))
        (funext ih)

theorem Identifier.qualify_some {table : String} (h : IsName table.toList) (field : String) :
    Identifier.qualify (some table) field = table ++ "." ++ field := by
  have filled : table.isEmpty = false := by
    refine Bool.eq_false_iff.2 fun empty => ?_
    rw [String.isEmpty_iff.1 empty] at h
    exact h
  rw [qualify, filled, if_neg Bool.false_ne_true]

/-- Table and columns of an entity have plain names, and no column stands twice. Nor is a column named
like the placeholder of another in the part of an insertion that changes a row. -/
structure PlainNames {α : Type} [Entity α] (e : α) : Prop where
  table : IsName (Entity.table α).toList
  columns : ∀ c ∈ (Entity.values e).map (·.1), IsName c.toList
  distinct : ((Entity.values e).map (·.1)).Nodup
  unmixed : ∀ c ∈ (Entity.values e).map (·.1), "update_" ++ c ∉ (Entity.values e).map (·.1)

namespace Write

open Entity

variable {α : Type} [Entity α] {e : α}

theorem filter_columns_subset {cells : List (String × Value)} (p : String × Value → Bool) :
    ∀ c ∈ (cells.filter p).map (·.1), c ∈ cells.map (·.1) :=
  fun _ member => List.map_subset _ (List.filter_subset_self _) member

theorem nodup_filter_columns {cells : List (String × Value)} (h : (cells.map (·.1)).Nodup)
    (p : String × Value → Bool) : ((cells.filter p).map (·.1)).Nodup :=
  h.sublist (List.filter_sublist.map _)

/-- A query about a table, with columns assigned under their own names. -/
theorem addSets_tableQuery (h : PlainNames e) (p : String × Value → Bool) :
    addSets ((values e).filter p) (tableQuery α) =
      { tableQuery α with
        sets := ((values e).filter p).map fun (c, _) => (c, c)
        bindings := ⟨bindingsOf id id ((values e).filter p),
          (((values e).filter p).map fun (c, _) => (c, c)).reverse⟩ } := by
  rw [addSets_eq, Assignments.assignAll_eq id id Function.injective_id Function.injective_id
    (nodup_filter_columns h.distinct p)]
  · simp only [tableQuery, Query.setSource, Query.empty, Bindings.empty, List.nil_append, List.append_nil, id]
  · exact fun c member => Identifier.placeholderBase_eq_self (h.columns c (filter_columns_subset p c member))
  · exact fun c _ => List.not_mem_nil
  · exact fun c _ => List.not_mem_nil
  · exact fun c _ => List.not_mem_nil

theorem placeholders_bindingsOf (field place : String → String) (cells : List (String × Value)) :
    (bindingsOf field place cells).map (·.placeholder) = cells.map fun (c, _) => place c := by
  simp only [bindingsOf, List.map_map]
  rfl

theorem params_bindingsOf (field place : String → String) (cells : List (String × Value)) :
    (bindingsOf field place cells).map (fun b => (b.placeholder, b.value)) =
      cells.map fun (c, v) => (place c, v) := by
  simp only [bindingsOf, List.map_map]
  rfl

/-! ### Clauses -/

theorem equations_empty (cells : List (String × Value)) :
    Statement.equations "" cells = cells.map fun (c, _) => quoted c ++ " = " ++ reference c := by
  simp only [Statement.equations, String.empty_append]

theorem renderSets_eq {q : Query} {cells : List (String × Value)}
    (named : ∀ c ∈ cells.map (·.1), IsName c.toList) (filled : cells ≠ [])
    (assigned : q.sets = cells.map fun (c, _) => (c, c)) :
    q.renderSets = .ok ("SET " ++ ", ".intercalate (Statement.equations "" cells)) := by
  have some : q.sets.isEmpty = false := by
    simpa only [assigned, List.isEmpty_map, List.isEmpty_eq_false_iff] using filled
  rw [Query.renderSets, some, if_neg Bool.false_ne_true, assigned, equations_empty]
  exact congrArg (fun text => Except.ok ("SET " ++ text)) (Assignments.render_eq id named)

theorem renderUpdates_eq {q : Query} {cells : List (String × Value)}
    (named : ∀ c ∈ cells.map (·.1), IsName c.toList) (filled : cells ≠ [])
    (assigned : q.updates = cells.map fun (c, _) => (c, "update_" ++ c)) :
    q.renderUpdates =
      "ON DUPLICATE KEY UPDATE " ++ ", ".intercalate (Statement.equations "update_" cells) := by
  have some : q.updates.isEmpty = false := by
    simpa only [assigned, List.isEmpty_map, List.isEmpty_eq_false_iff] using filled
  rw [Query.renderUpdates, some, if_neg Bool.false_ne_true, assigned]
  exact congrArg (fun text => "ON DUPLICATE KEY UPDATE " ++ text) (Assignments.render_eq ("update_" ++ ·) named)

theorem renderWhere_eq {q : Query} {column place : String → String} {cells : List (String × Value)}
    (filled : cells ≠ []) (added : q.wheres = Query.equalPredicates column place cells) (required : Bool) :
    q.renderWhere required =
      .ok ("WHERE " ++ " AND ".intercalate (cells.map fun (c, _) => column c ++ " = " ++ reference (place c))) := by
  have some : q.wheres.isEmpty = false := by
    simpa only [added, Query.equalPredicates, List.isEmpty_map, List.isEmpty_eq_false_iff] using filled
  rw [Query.renderWhere, some, if_neg fun both => Bool.false_ne_true both.2, renderClause, some,
    if_neg Bool.false_ne_true, added, renderPredicates_equal]
  rfl

theorem placeholders_equalPredicates (column place : String → String) (cells : List (String × Value)) :
    Query.referenced (Query.equalPredicates column place cells) = cells.map fun (c, _) => place c := by
  have none : rawFragments (Query.equalPredicates column place cells) = [] := by
    simp only [rawFragments, Query.equalPredicates, List.filterMap_map]
    exact List.filterMap_eq_nil_iff.2 fun _ _ => rfl
  rw [Query.referenced, none, List.flatMap_nil, List.append_nil, boundPlaceholders, Query.equalPredicates,
    List.flatMap_map, List.map_eq_flatMap]
  rfl

/-- A clause that starts with its keyword stays in the statement. -/
theorem filter_keyword {keyword : String} (h : keyword.isEmpty = false) (text : String)
    (rest : List String) : ((keyword ++ text) :: rest).filter (fun c => !c.isEmpty) =
      (keyword ++ text) :: rest.filter fun c => !c.isEmpty :=
  List.filter_cons_of_pos (by simp_all)

theorem params_bindingsOf_id (cells : List (String × Value)) :
    (bindingsOf id id cells).map (fun b => (b.placeholder, b.value)) = cells := by
  rw [params_bindingsOf]
  exact List.map_id' cells

/-! ### Statements -/

/-- An insertion sets every column but the numbered one. -/
theorem insertStatement_eq (h : PlainNames e) (filled : insertValues e ≠ []) :
    insertStatement e = .ok (.insertInto (table α) (insertValues e)) := by
  have columns : ∀ c ∈ (insertValues e).map (·.1), IsName c.toList :=
    fun c member => h.columns c (filter_columns_subset _ c member)
  obtain ⟨q, made⟩ : ∃ q, q = addSets (insertValues e) (tableQuery α) := ⟨_, rfl⟩
  have set := made.trans (addSets_tableQuery h fun (column, _) => some column != autoIncrement α)
  have source : q.source = some (table α, none) := by rw [set]; rfl
  have updates : q.renderUpdates = "" := by rw [set]; rfl
  have clauses : q.clauses .insert = .ok ["INSERT INTO " ++ quoted (table α),
      "SET " ++ ", ".intercalate (Statement.equations "" (insertValues e)), ""] := by
    simp only [Query.clauses, Query.target, source, renderSets_eq columns filled (congrArg Query.sets set),
      updates, Bind.bind, Except.bind, Identifier.escape_eq_quoted h.table]
    rfl
  have referred : q.statementPlaceholders .insert = q.bindings.placeholders := by
    simp only [set, Query.statementPlaceholders, Bindings.placeholders, placeholders_bindingsOf,
      Assignments.placeholders, List.map_map, tableQuery, Query.setSource, Query.empty, List.map_nil,
      List.append_nil]
    rfl
  have entries : q.bindings.entries = bindingsOf id id (insertValues e) := by rw [set]; rfl
  rw [insertStatement, ← made, Query.build_of_all_bound clauses referred, entries, params_bindingsOf_id,
    filter_keyword rfl, filter_keyword rfl]
  rfl

/-- In a table of nothing but keys the key is assigned again, elsewhere every column but the key. -/
theorem conflictValues_eq_filter (e : α) :
    ∃ p, conflictValues e = (values e).filter p := by
  unfold conflictValues
  split
  · exact ⟨_, rfl⟩
  · exact ⟨_, rfl⟩

theorem qualify_update (c : String) : Identifier.qualify (some "update") c = "update" ++ "." ++ c :=
  Identifier.qualify_some (by decide) c

/-- The field that stands for a column in the part of an insertion that changes a row. -/
theorem placeholderBase_update {c : String} (h : IsName c.toList) :
    Identifier.placeholderBase (Identifier.qualify (some "update") c) = "update_" ++ c := by
  have start : "update" ++ "_" = "update_" := by decide
  rw [qualify_update, Identifier.placeholderBase_qualified (by decide) h, start]

/-- A query that sets columns, with columns assigned for the case that the row exists. -/
theorem addUpdates_addSets (h : PlainNames e) (p p' : String × Value → Bool) :
    addUpdates ((values e).filter p') (addSets ((values e).filter p) (tableQuery α)) =
      { tableQuery α with
        sets := ((values e).filter p).map fun (c, _) => (c, c)
        updates := ((values e).filter p').map fun (c, _) => (c, "update_" ++ c)
        bindings := ⟨bindingsOf id id ((values e).filter p) ++
            bindingsOf (Identifier.qualify (some "update")) ("update_" ++ ·) ((values e).filter p'),
          (((values e).filter p').map fun (c, _) =>
              (Identifier.qualify (some "update") c, "update_" ++ c)).reverse ++
            (((values e).filter p).map fun (c, _) => (c, c)).reverse⟩ } := by
  have oneField : Function.Injective (Identifier.qualify (some "update")) := fun c d same => by
    rw [qualify_update, qualify_update] at same
    exact (String.append_right_inj _).1 same
  have onePlace : Function.Injective ("update_" ++ ·) := fun c d same => (String.append_right_inj _).1 same
  have columns : ∀ p, ∀ c ∈ ((values e).filter p).map (·.1), c ∈ (values e).map (·.1) :=
    fun p => filter_columns_subset p
  rw [addSets_tableQuery h, addUpdates_eq, Assignments.assignAll_eq _ _ oneField onePlace
    (nodup_filter_columns h.distinct p')]
  · simp only [tableQuery, Query.setSource, Query.empty, List.nil_append]
  · exact fun c member => placeholderBase_update (h.columns c (columns p' c member))
  · intro c member taken
    refine h.unmixed c (columns p' c member) (columns p _ ?_)
    simpa only [Bindings.placeholders, placeholders_bindingsOf, id] using taken
  · intro c member taken
    rw [List.map_reverse, List.mem_reverse, List.map_map, qualify_update] at taken
    have dot : '.' ∈ ("update" ++ "." ++ c).toList := by simp
    exact (h.columns _ (columns p _ taken)).not_mem (by decide) dot
  · exact fun c _ => List.not_mem_nil

/-- An insertion that may change a row binds what it changes apart from what it sets. -/
theorem upsertStatement_eq (h : PlainNames e) (filled : insertValues e ≠ [])
    (changing : conflictValues e ≠ []) :
    upsertStatement e = .ok (.insertOrChange (table α) (insertValues e) (conflictValues e)) := by
  obtain ⟨p, filtered⟩ := conflictValues_eq_filter e
  have columns : ∀ c ∈ (insertValues e).map (·.1), IsName c.toList :=
    fun c member => h.columns c (filter_columns_subset _ c member)
  have changed : ∀ c ∈ (conflictValues e).map (·.1), IsName c.toList := by
    rw [filtered]
    exact fun c member => h.columns c (filter_columns_subset _ c member)
  obtain ⟨q, made⟩ : ∃ q, q = addUpdates (conflictValues e) (addSets (insertValues e) (tableQuery α)) :=
    ⟨_, rfl⟩
  have set := made
  rw [insertValues, filtered, addUpdates_addSets h, ← filtered] at set
  have source : q.source = some (table α, none) := by rw [set]; rfl
  have clauses : q.clauses .insert = .ok ["INSERT INTO " ++ quoted (table α),
      "SET " ++ ", ".intercalate (Statement.equations "" (insertValues e)),
      "ON DUPLICATE KEY UPDATE " ++ ", ".intercalate (Statement.equations "update_" (conflictValues e))] := by
    simp only [Query.clauses, Query.target, source, renderSets_eq columns filled (congrArg Query.sets set),
      renderUpdates_eq changed changing (congrArg Query.updates set), Bind.bind, Except.bind,
      Identifier.escape_eq_quoted h.table]
    rfl
  have referred : q.statementPlaceholders .insert = q.bindings.placeholders := by
    simp only [set, Query.statementPlaceholders, Bindings.placeholders, List.map_append,
      placeholders_bindingsOf, Assignments.placeholders, List.map_map]
    rfl
  have entries : q.bindings.entries = bindingsOf id id (insertValues e) ++
      bindingsOf (Identifier.qualify (some "update")) ("update_" ++ ·) (conflictValues e) := by
    rw [set]
    rfl
  rw [upsertStatement, ← made, Query.build_of_all_bound clauses referred, entries, List.map_append,
    params_bindingsOf_id, params_bindingsOf, filter_keyword rfl, filter_keyword rfl, filter_keyword rfl]
  rfl

/-- The conditions on the key of an entity, added to a query that has bound other columns. -/
theorem addConditions_keyValues (h : PlainNames e) {q : Query}
    (free : ∀ c ∈ (keyValues e).map (·.1), c ∉ q.bindings.placeholders) :
    addConditions (keyValues e) q = .ok { q with
      wheres := q.wheres ++ Query.equalPredicates quoted id (keyValues e)
      bindings := { q.bindings with
        entries := q.bindings.entries ++ bindingsOf id id (keyValues e) } } := by
  have columns : ∀ c ∈ (keyValues e).map (·.1), IsName c.toList :=
    fun c member => h.columns c (filter_columns_subset _ c member)
  have distinct : ((keyValues e).map (·.1)).Nodup := nodup_filter_columns h.distinct _
  rw [addConditions_eq, Query.addAllEqual_eq quoted id Function.injective_id distinct]
  · rfl
  · exact fun c member => Identifier.placeholderBase_eq_self (columns c member)
  · exact fun c member => Identifier.escape_eq_quoted (columns c member)
  · exact free

/-- A column of the key is not among those that change. -/
theorem not_mem_updateValues (e : α) :
    ∀ c ∈ (keyValues e).map (·.1), c ∉ (updateValues e).map (·.1) := by
  intro c key update
  obtain ⟨⟨d, v⟩, member, rfl⟩ := List.mem_map.1 key
  obtain ⟨⟨d', v'⟩, changes, same⟩ := List.mem_map.1 update
  have keyed : (primaryKey α).contains d = true := (List.mem_filter.1 member).2
  have unkeyed : (!(primaryKey α).contains d') = true := (List.mem_filter.1 changes).2
  rw [show d' = d from same, keyed] at unkeyed
  exact Bool.false_ne_true unkeyed

/-- A change sets the columns beside the key, in the row with the key. -/
theorem updateStatement_eq (h : PlainNames e) (changing : updateValues e ≠ []) (keyed : keyValues e ≠ []) :
    updateStatement e = .ok (.updateWhere (table α) (updateValues e) (keyValues e)) := by
  have columns : ∀ c ∈ (updateValues e).map (·.1), IsName c.toList :=
    fun c member => h.columns c (filter_columns_subset _ c member)
  have set := addSets_tableQuery h fun (column, _) => !(primaryKey α).contains column
  obtain ⟨q, made⟩ : ∃ q, addConditions (keyValues e) (addSets (updateValues e) (tableQuery α)) = .ok q ∧
      q = { tableQuery α with
        sets := (updateValues e).map fun (c, _) => (c, c)
        wheres := Query.equalPredicates quoted id (keyValues e)
        bindings := ⟨bindingsOf id id (updateValues e) ++ bindingsOf id id (keyValues e),
          ((updateValues e).map fun (c, _) => (c, c)).reverse⟩ } := by
    refine ⟨_, addConditions_keyValues h ?_, ?_⟩
    · rw [updateValues, set, Bindings.placeholders, placeholders_bindingsOf]
      exact not_mem_updateValues e
    · rw [updateValues, set]
      rfl
  have source : q.source = some (table α, none) := by rw [made.2]; rfl
  have sets := congrArg Query.sets made.2
  have wheres := congrArg Query.wheres made.2
  have unordered : renderOrder q.orders = "" := by rw [made.2]; rfl
  have unlimited : q.limit.render = "" := by rw [made.2]; rfl
  have clauses : q.clauses .update = .ok ["UPDATE " ++ quoted (table α),
      "SET " ++ ", ".intercalate (Statement.equations "" (updateValues e)),
      "WHERE " ++ " AND ".intercalate (Statement.equations "" (keyValues e)), "", ""] := by
    simp only [Query.clauses, Query.target, source, renderSets_eq columns changing sets,
      renderWhere_eq keyed wheres, unordered, unlimited, Bind.bind, Except.bind,
      Identifier.escape_eq_quoted h.table, equations_empty]
    rfl
  have referred : q.statementPlaceholders .update = q.bindings.placeholders := by
    simp only [made.2, Query.statementPlaceholders, placeholders_equalPredicates, Bindings.placeholders,
      List.map_append, placeholders_bindingsOf, Assignments.placeholders, List.map_map]
    rfl
  have entries : q.bindings.entries = bindingsOf id id (updateValues e) ++ bindingsOf id id (keyValues e) :=
    by rw [made.2]
  rw [updateStatement, made.1]
  simp only [Bind.bind, Except.bind]
  rw [Query.build_of_all_bound clauses referred, entries, List.map_append, params_bindingsOf_id,
    params_bindingsOf_id, filter_keyword rfl, filter_keyword rfl, filter_keyword rfl]
  rfl

/-- Where no column is beside the key, a change has nothing to set. -/
theorem updateStatement_of_empty (h : PlainNames e) (none : updateValues e = []) :
    updateStatement e = .error .emptySetClause := by
  have added := addConditions_keyValues h (q := tableQuery α) fun c _ => List.not_mem_nil
  rw [updateStatement, none, show addSets [] (tableQuery α) = tableQuery α from rfl, added]
  rfl

theorem deleteStatement_eq (h : PlainNames e) (keyed : keyValues e ≠ []) :
    deleteStatement e = .ok (.deleteWhere (table α) (keyValues e)) := by
  obtain ⟨q, made⟩ : ∃ q, addConditions (keyValues e) (tableQuery α) = .ok q ∧
      q = { tableQuery α with
        wheres := Query.equalPredicates quoted id (keyValues e)
        bindings := ⟨bindingsOf id id (keyValues e), []⟩ } :=
    ⟨_, addConditions_keyValues h fun c _ => List.not_mem_nil, rfl⟩
  have source : q.source = some (table α, none) := by rw [made.2]; rfl
  have wheres := congrArg Query.wheres made.2
  have unordered : renderOrder q.orders = "" := by rw [made.2]; rfl
  have unlimited : q.limit.render = "" := by rw [made.2]; rfl
  have clauses : q.clauses .delete = .ok ["DELETE FROM " ++ quoted (table α),
      "WHERE " ++ " AND ".intercalate (Statement.equations "" (keyValues e)), "", ""] := by
    simp only [Query.clauses, Query.target, source, renderWhere_eq keyed wheres, unordered, unlimited,
      Bind.bind, Except.bind, Identifier.escape_eq_quoted h.table, equations_empty]
    rfl
  have referred : q.statementPlaceholders .delete = q.bindings.placeholders := by
    simp only [made.2, Query.statementPlaceholders, placeholders_equalPredicates, Bindings.placeholders,
      placeholders_bindingsOf]
  have entries : q.bindings.entries = bindingsOf id id (keyValues e) := by rw [made.2]
  rw [deleteStatement, made.1]
  simp only [Bind.bind, Except.bind]
  rw [Query.build_of_all_bound clauses referred, entries, params_bindingsOf_id, filter_keyword rfl,
    filter_keyword rfl]
  rfl

end Write

namespace Select

open Entity (table primaryKey)
open Decodable (columns)

variable {α : Type} [Entity α]

theorem addFields_eq (field : String → Field) (names : List String) (q : Query) :
    names.foldl (fun q c => q.addField (field c)) q =
      { q with fields := { q.fields with fields := q.fields.fields ++ names.map field } } := by
  induction names generalizing q with
  | nil => simp only [List.foldl_nil, List.map_nil, List.append_nil]
  | cons c names ih =>
      rw [List.foldl_cons, ih]
      simp only [Query.addField, FieldList.add, List.map_cons, List.append_assoc, List.cons_append,
        List.nil_append]

theorem renderFields_eq {q : Query} {names : List String} {primary : String → Bool}
    (named : ∀ c ∈ names, IsName c.toList) (filled : names ≠ [])
    (selected : q.fields = ⟨names.map fun c => { name := c, primary := primary c }, false⟩) :
    q.renderFields false false = .ok (", ".intercalate (names.map quoted)) := by
  have some : names.isEmpty = false := List.isEmpty_eq_false_iff.2 filled
  have each : ∀ c ∈ names, Field.render { name := c, primary := primary c } none = quoted c :=
    fun c member => Identifier.escape_eq_quoted (named c member)
  simp only [Query.renderFields, selected, FieldList.render, FieldList.renderFields, Bool.false_eq_true,
    false_and, if_false, List.isEmpty_map, some, List.map_map, String.empty_append]
  exact congrArg (fun texts => Except.ok (", ".intercalate texts)) (List.map_congr_left each)

/-- A lookup selects every column of the row with a key. -/
theorem selectStatement_eq {key : List (String × Value)} (tableNamed : IsName (table α).toList)
    (named : ∀ c ∈ columns α, IsName c.toList) (filled : columns α ≠ []) (keyed : primaryKey α ≠ [])
    (keyNamed : ∀ c ∈ key.map (·.1), IsName c.toList) (distinct : (key.map (·.1)).Nodup) (some : key ≠ []) :
    ∃ q, addPrimaryKey α key (baseQuery α) = .ok q ∧
      q.build .select = .ok (.selectWhere (table α) (columns α) key) := by
  have qualified : ∀ c, Identifier.qualify (.some (table α)) c = table α ++ "." ++ c :=
    Identifier.qualify_some tableNamed
  have onePlace : Function.Injective (table α ++ "_" ++ ·) := fun c d same => (String.append_right_inj _).1 same
  obtain ⟨q, made⟩ : ∃ q, addPrimaryKey α key (baseQuery α) = .ok q ∧
      q = { Query.empty.setSource (table α) none with
        fields := ⟨(columns α).map fun c => { name := c, primary := (primaryKey α).contains c }, false⟩
        wheres := Query.equalPredicates (fun c => quoted (table α) ++ "." ++ quoted c) (table α ++ "_" ++ ·) key
        bindings := ⟨bindingsOf (Identifier.qualify (.some (table α))) (table α ++ "_" ++ ·) key, []⟩ } := by
    refine ⟨_, ?_, rfl⟩
    rw [addPrimaryKey, if_neg (by simpa only [List.isEmpty_iff] using keyed), addEqual_eq,
      Query.addAllEqual_eq (fun c => quoted (table α) ++ "." ++ quoted c) _ onePlace distinct]
    · rw [baseQuery, addFields_eq]
      rfl
    · intro c member
      rw [qualified, Identifier.placeholderBase_qualified tableNamed (keyNamed c member)]
    · intro c member
      rw [qualified, Identifier.escape_qualified tableNamed (keyNamed c member)]
    · rw [baseQuery, addFields_eq]
      exact fun c _ => List.not_mem_nil
  refine ⟨q, made.1, ?_⟩
  have source : q.renderSource = .ok ("FROM " ++ quoted (table α)) := by
    rw [made.2, ← Identifier.escape_eq_quoted tableNamed]
    rfl
  have joins : q.joins = [] := by rw [made.2]; rfl
  have wheres : q.wheres = Query.equalPredicates (fun c => quoted (table α) ++ "." ++ quoted c)
      (table α ++ "_" ++ ·) key := by rw [made.2]
  have rest : renderGroup q.groups = "" ∧ q.renderHaving = "" ∧ renderOrder q.orders = "" ∧
      q.limit.render = "" := by
    rw [made.2]
    exact ⟨rfl, rfl, rfl, rfl⟩
  have clauses : q.clauses .select = .ok ["SELECT " ++ ", ".intercalate ((columns α).map quoted),
      "FROM " ++ quoted (table α), "",
      "WHERE " ++ " AND ".intercalate (key.map fun (c, _) =>
        quoted (table α) ++ "." ++ quoted c ++ " = " ++ reference (table α ++ "_" ++ c)), "", "", "", ""] := by
    simp only [Query.clauses, joins, List.isEmpty_nil, Bool.not_true,
      renderFields_eq named filled (congrArg Query.fields made.2), source,
      Write.renderWhere_eq some wheres, rest, Bind.bind, Except.bind]
    rfl
  have referred : q.statementPlaceholders .select = q.bindings.placeholders := by
    simp only [made.2, Query.statementPlaceholders, Write.placeholders_equalPredicates,
      Bindings.placeholders, Write.placeholders_bindingsOf]
    exact List.append_nil _
  have entries : q.bindings.entries =
      bindingsOf (Identifier.qualify (.some (table α))) (table α ++ "_" ++ ·) key := by rw [made.2]
  have blank : ∀ rest : List String, ("" :: rest).filter (fun c => !c.isEmpty) =
      rest.filter fun c => !c.isEmpty := fun _ => rfl
  rw [Query.build_of_all_bound clauses referred, entries, Write.params_bindingsOf, Write.filter_keyword rfl,
    Write.filter_keyword rfl, blank, Write.filter_keyword rfl]
  rfl

end Select

end TableMapper
