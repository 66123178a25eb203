import TableMapper.Proofs.Outcome
import TableMapper.Proofs.Query.WellFormed

/-! # Placeholders of built statements

The placeholders of a statement are found twice: by a database that reads its text, and by `build`, which
lists the ones that the clauses refer to and passes their values. What a query renders itself is read as
listed. The two can differ in what was written by hand: selected fields are not scanned, and the scan of a
condition does not know names between backticks.
-/

namespace TableMapper

open Identifier (IsName)
open Reading

/-! ## Predicates -/

/-- The placeholders read in a predicate. -/
def Term.read : Term → List String
  | .raw fragment => Reading.placeholders fragment
  | term => term.placeholders

theorem Operator.silent_sql (op : Operator) : Silent op.sql := by
  cases op <;> decide

/-- An assignment or equation is read as its placeholder. -/
theorem reads_equation {column placeholder : String} (hc : Silent column)
    (hp : IsName placeholder.toList) : Reads (column ++ " = " ++ reference placeholder) [placeholder] :=
  (hc.append (by decide)).append_reads (reads_reference hp)

theorem Term.reads_renderKey {key : List (String × String)}
    (h : ∀ c ∈ key, Silent c.1 ∧ IsName c.2.toList) : Reads (renderKey key) (key.map (·.2)) := by
  have terms : Reads (" AND ".intercalate (key.map renderKeyColumn)) (key.map (·.2)) := by
    have each := reads_intercalate " AND " (by decide) (by decide)
      fun c hc => reads_equation (h c hc).1 (h c hc).2
    rwa [← List.map_eq_flatMap] at each
  unfold renderKey
  split
  · exact terms
  · exact (Silent.append_reads (by decide) terms).append_silent (by decide) (by decide)

/-- A predicate that binding made is read as the placeholders it was bound to. -/
theorem Term.Bound.reads {t : Term} (h : t.Bound) : Reads t.render t.placeholders := by
  cases t with
  | compare column op placeholder =>
      have start := (h.1.join " " (by decide) op.silent_sql).append (by decide : Silent " ")
      exact start.append_reads (reads_reference h.2)
  | literal column op word =>
      exact ((h.1.join " " (by decide) op.silent_sql).join " " (by decide) h.2).reads
  | isIn column negated ps =>
      have opening : Silent (if negated then " NOT IN (" else " IN (") := by cases negated <;> decide
      have list : Reads (", ".intercalate (ps.map reference)) ps := by
        have each := reads_intercalate ", " (by decide) (by decide)
          fun p hp => reads_reference (h.2 p hp)
        rwa [List.flatMap_singleton'] at each
      exact ((h.1.append opening).append_reads list).append_silent (by decide) (by decide)
  | anyKey keys =>
      have each := reads_intercalate " OR " (by decide) (by decide)
        fun key hk => Term.reads_renderKey (h key hk)
      exact (Silent.append_reads (by decide) each).append_silent (by decide) (by decide)
  | raw fragment => exact h.elim

/-- A fragment is read in its parentheses as it is alone. -/
theorem Term.reads_raw {fragment : String} (h : Complete fragment) :
    Reads (Term.raw fragment).render (Term.raw fragment).read :=
  (Silent.append_reads (by decide) h.reads).append_silent (by decide) (by decide)

theorem Term.Bound.read_eq {t : Term} (h : t.Bound) : t.read = t.placeholders := by
  cases t with
  | raw fragment => exact h.elim
  | compare | literal | isIn | anyKey => rfl

theorem Concat.silent_sql (c : Concat) : Silent c.sql := by
  cases c <;> decide

theorem reads_predicates {ps : List Predicate} {names : Predicate → List String}
    (each : ∀ p ∈ ps, Reads p.term.render (names p)) : Reads (renderPredicates ps) (ps.flatMap names) := by
  -- each predicate after the first brings its separator in front, so the text before it is carried along
  have behind : ∀ (rest : List Predicate) (text : String) (read : List String), Reads text read →
      (∀ p ∈ rest, Reads p.term.render (names p)) →
      Reads (text ++ String.join (rest.map fun p => " " ++ p.concat.sql ++ " " ++ p.term.render))
        (read ++ rest.flatMap names) := by
    intro rest
    induction rest with
    | nil =>
        intro text read first _
        simpa only [List.map_nil, String.join_nil, String.append_empty, List.flatMap_nil,
          List.append_nil] using first
    | cons p rest ih =>
        intro text read first each
        have separator : Silent (" " ++ p.concat.sql ++ " ") :=
          (Silent.append (by decide) p.concat.silent_sql).append (by decide)
        have apart : Apart (" " ++ p.concat.sql ++ " ") := by cases p.concat <;> decide
        have next := first.join (each p (List.mem_cons_self ..)) separator apart
        have all := ih _ _ next fun q hq => each q (List.mem_cons_of_mem _ hq)
        rw [List.map_cons, String.join_cons, List.flatMap_cons]
        simpa only [String.append_assoc, List.append_assoc] using all
  cases ps with
  | nil => exact reads_empty
  | cons p ps =>
      exact behind ps _ _ (each p (List.mem_cons_self ..)) fun q hq => each q (List.mem_cons_of_mem _ hq)

theorem reads_clause {keyword : String} (silent : Silent (keyword ++ " ")) {ps : List Predicate}
    {names : Predicate → List String} (each : ∀ p ∈ ps, Reads p.term.render (names p)) :
    Reads (renderClause keyword ps) (ps.flatMap names) := by
  cases ps with
  | nil => exact reads_empty
  | cons p ps => exact silent.append_reads (reads_predicates each)

/-- What is read in predicates is what they were bound to and what is read in their fragments. -/
theorem mem_read_iff {ps : List Predicate} {name : String} :
    name ∈ ps.flatMap (·.term.read) ↔
      name ∈ boundPlaceholders ps ∨ name ∈ (rawFragments ps).flatMap Reading.placeholders := by
  induction ps with
  | nil => simp only [boundPlaceholders, rawFragments, List.flatMap_nil, List.filterMap_nil,
      List.not_mem_nil, or_self]
  | cons p ps ih =>
      obtain ⟨concat, term⟩ := p
      have bound : boundPlaceholders (⟨concat, term⟩ :: ps) = term.placeholders ++ boundPlaceholders ps :=
        List.flatMap_cons
      rw [List.flatMap_cons, List.mem_append, ih, bound, List.mem_append]
      cases term with
      | raw fragment =>
          have raw : rawFragments (⟨concat, .raw fragment⟩ :: ps) = fragment :: rawFragments ps := rfl
          rw [raw, List.flatMap_cons, List.mem_append, Term.placeholders, Term.read]
          simp only [List.not_mem_nil, false_or]
          exact or_left_comm
      | compare | literal | isIn | anyKey => exact (or_assoc).symm

/-! ## Other clauses -/

/-- The placeholders read in a selected field. -/
def Field.read (f : Field) : List String := if f.raw then Reading.placeholders f.name else []

/-- The expressions written by hand among fields. -/
def rawFields (fields : List Field) : List String := (fields.filter (·.raw)).map (·.name)

theorem Field.reads_render {f : Field} (complete : f.raw = true → Complete f.name)
    (table : Option String) : Reads (f.render table) f.read := by
  have name : Reads (if f.raw then f.name else
      Identifier.escape (Identifier.qualify (f.table.or table) f.name)) f.read := by
    unfold Field.read
    split
    · next raw => exact (complete raw).reads
    · exact (silent_escape _).reads
  unfold Field.render
  cases f.label with
  | none => exact name
  | some label =>
      have labelled := name.join (silent_escape label).reads (by decide : Silent " AS ") (by decide)
      rwa [List.append_nil] at labelled

theorem flatMap_read_fields (fields : List Field) :
    fields.flatMap Field.read = (rawFields fields).flatMap Reading.placeholders := by
  induction fields with
  | nil => rfl
  | cons f fields ih =>
      rw [List.flatMap_cons, ih, Field.read]
      cases raw : f.raw with
      | true =>
          have kept : rawFields (f :: fields) = f.name :: rawFields fields := by
            rw [rawFields, List.filter_cons_of_pos raw]
            rfl
          rw [kept, List.flatMap_cons, if_pos rfl]
      | false =>
          have left : rawFields (f :: fields) = rawFields fields := by
            rw [rawFields, List.filter_cons_of_neg (by rw [raw]; exact Bool.false_ne_true)]
            rfl
          rw [left, if_neg Bool.false_ne_true, List.nil_append]

theorem reads_fields {fields : List Field} (complete : ∀ text ∈ rawFields fields, Complete text)
    (table : Option String) :
    Reads (FieldList.renderFields fields table) ((rawFields fields).flatMap Reading.placeholders) := by
  cases fields with
  | nil =>
      cases table with
      | none => exact ⟨by decide, by decide⟩
      | some table => exact (silent_escape _).reads
  | cons f fields =>
      have list : FieldList.renderFields (f :: fields) table =
          ", ".intercalate ((f :: fields).map (·.render table)) := rfl
      rw [← flatMap_read_fields, list]
      refine reads_intercalate ", " (by decide) (by decide) fun g hg => ?_
      refine g.reads_render (fun raw => complete g.name ?_) table
      exact List.mem_map.mpr ⟨g, List.mem_filter.mpr ⟨hg, raw⟩, rfl⟩

theorem JoinType.silent_sql (t : JoinType) : Silent t.sql := by
  cases t <;> decide

theorem Join.silent_render (j : Join) : Silent j.render := by
  have table := j.type.silent_sql.join " " (by decide) (silent_escape j.table)
  have named := table.join " AS " (by decide) (silent_escape j.remoteAlias)
  have here := (named.join " ON " (by decide) (silent_escape j.localAlias)).join "." (by decide)
    (silent_escape j.localField)
  exact (here.join " = " (by decide) (silent_escape j.remoteAlias)).join "." (by decide)
    (silent_escape j.remoteField)

theorem silent_joins (joins : List Join) : Silent (renderJoins joins) := by
  refine silent_intercalate " " (by decide) fun text member => ?_
  obtain ⟨j, -, rfl⟩ := List.mem_map.mp member
  exact j.silent_render

theorem silent_group (fields : List String) : Silent (renderGroup fields) := by
  unfold renderGroup
  split
  · exact silent_empty
  · refine Silent.append (by decide) (silent_intercalate ", " (by decide) fun text member => ?_)
    obtain ⟨field, -, rfl⟩ := List.mem_map.mp member
    exact silent_escape field

theorem Direction.silent_sql (d : Direction) : Silent d.sql := by
  cases d <;> decide

theorem silent_order (terms : List (String × Direction)) : Silent (renderOrder terms) := by
  unfold renderOrder
  split
  · exact silent_empty
  · refine Silent.append (by decide) (silent_intercalate ", " (by decide) fun text member => ?_)
    obtain ⟨⟨field, d⟩, -, rfl⟩ := List.mem_map.mp member
    exact (silent_escape field).join " " (by decide) d.silent_sql

theorem Limit.silent_render (l : Limit) : Silent l.render := by
  obtain ⟨count, offset⟩ := l
  cases count with
  | none => exact silent_empty
  | some count =>
      have limited := Silent.append (by decide : Silent "LIMIT ") (silent_number count)
      cases offset with
      | none => exact limited
      | some offset => exact limited.join " OFFSET " (by decide) (silent_number offset)

theorem Assignments.reads_render {a : Assignments} (h : ∀ x ∈ a, IsName x.2.toList) :
    Reads a.render a.placeholders := by
  have each := reads_intercalate ", " (by decide) (by decide)
    fun x hx => reads_equation (silent_escape x.1) (h x hx)
  rwa [← List.map_eq_flatMap] at each

namespace Query

/-! ## What a statement is made of -/

/-- The expressions written by hand in a statement, which `build` does not look into. -/
def expressions (q : Query) : StatementKind → List String
  | .select => rawFields q.fields.fields
  | .count | .insert | .update | .delete => []

/-- The conditions written by hand in a statement, which `build` scans for placeholders. -/
def fragments (q : Query) : StatementKind → List String
  | .insert => []
  | .select | .count | .update | .delete => rawFragments q.wheres

/-- Everything written by hand in a statement. -/
def handwritten (q : Query) (kind : StatementKind) : List String := q.expressions kind ++ q.fragments kind

/-- The placeholders that the query itself puts into a statement. -/
def ownPlaceholders (q : Query) : StatementKind → List String
  | .select | .count => boundPlaceholders q.wheres ++ boundPlaceholders q.havings
  | .insert => q.sets.placeholders ++ q.updates.placeholders
  | .update => q.sets.placeholders ++ boundPlaceholders q.wheres
  | .delete => boundPlaceholders q.wheres

theorem rawFragments_of_bound {ps : List Predicate} (h : ∀ p ∈ ps, p.term.Bound) :
    rawFragments ps = [] := by
  refine List.filterMap_eq_nil_iff.mpr fun p hp => ?_
  have bound := h p hp
  obtain ⟨concat, term⟩ := p
  cases term with
  | raw fragment => exact bound.elim
  | compare | literal | isIn | anyKey => rfl

/-- The placeholders that `build` lists are the query's own and those the scan finds. -/
theorem mem_statementPlaceholders_iff {q : Query} (h : q.WellFormed) {kind : StatementKind}
    {name : String} : name ∈ q.statementPlaceholders kind ↔
      name ∈ q.ownPlaceholders kind ∨ name ∈ (q.fragments kind).flatMap Fragment.placeholders := by
  have none : (rawFragments q.havings).flatMap Fragment.placeholders = [] := by
    rw [rawFragments_of_bound h.havings]
    rfl
  cases kind with
  | select | count =>
      simp only [statementPlaceholders, ownPlaceholders, fragments, referenced, none, List.append_nil,
        List.mem_append]
      exact or_right_comm
  | insert =>
      simp only [statementPlaceholders, ownPlaceholders, fragments, List.flatMap_nil, List.not_mem_nil,
        or_false]
  | update =>
      simp only [statementPlaceholders, ownPlaceholders, fragments, referenced, List.mem_append]
      exact (or_assoc).symm
  | delete => simp only [statementPlaceholders, ownPlaceholders, fragments, referenced, List.mem_append]

/-! ## What is built -/

/-- A built statement joins its clauses, and its parameters are what `build` lists. -/
theorem of_build {q : Query} {kind : StatementKind} {st : Statement} (built : q.build kind = .ok st) :
    ∃ texts, q.clauses kind = .ok texts ∧
      st.sql = " ".intercalate (texts.filter fun text => !text.isEmpty) ∧
      ∀ name, name ∈ st.params.map (·.1) ↔ name ∈ q.statementPlaceholders kind := by
  obtain ⟨texts, rendered, rest⟩ := exists_of_bind built
  refine ⟨texts, rendered, ?_⟩
  dsimp only at rest
  split at rest
  · cases rest
  · next all =>
    cases rest
    refine ⟨rfl, fun name => ?_⟩
    simp only [List.map_map, List.mem_map, List.mem_filter, List.contains_iff_mem, Function.comp_apply]
    refine ⟨fun ⟨b, ⟨_, listed⟩, same⟩ => same ▸ listed, fun listed => ?_⟩
    -- nothing listed is lost when the bindings are filtered, since all of it is bound
    have bound : q.bindings.contains name = true := by
      simpa only [Bool.not_eq_true', Bool.not_eq_false] using List.find?_eq_none.mp all name listed
    obtain ⟨b, member, same⟩ := List.mem_map.mp (Bindings.contains_iff.mp bound)
    exact ⟨b, ⟨member, same.symm ▸ listed⟩, same⟩

/-! ## What is read -/

theorem reads_renderFields {q : Query} {prefixed : Bool} {text : String}
    (rendered : q.renderFields prefixed false = .ok text)
    (complete : ∀ text ∈ rawFields q.fields.fields, Complete text) :
    Reads text ((rawFields q.fields.fields).flatMap Reading.placeholders) := by
  have counted : Silent (if q.fields.calcFoundRows then "SQL_CALC_FOUND_ROWS " else "") := by
    split <;> decide
  simp only [renderFields, FieldList.render, Bool.false_eq_true, false_and, if_false] at rendered
  cases rendered
  exact counted.append_reads (reads_fields complete _)

theorem silent_renderSource {q : Query} {text : String} (rendered : q.renderSource = .ok text) :
    Silent text := by
  unfold renderSource at rendered
  split at rendered
  · next table label _ =>
    cases rendered
    have named := (by decide : Silent "FROM ").append (silent_escape table)
    exact named.join " AS " (by decide) (silent_escape label)
  · next table _ =>
    cases rendered
    exact Silent.append (by decide) (silent_escape table)
  · cases rendered

theorem reads_renderWhere {q : Query} (h : q.WellFormed) {required : Bool} {text : String}
    (rendered : q.renderWhere required = .ok text)
    (complete : ∀ fragment ∈ rawFragments q.wheres, Complete fragment) :
    Reads text (q.wheres.flatMap (·.term.read)) := by
  unfold renderWhere at rendered
  split at rendered
  · cases rendered
  · cases rendered
    refine reads_clause (by decide) fun p hp => ?_
    rcases h.wheres p hp with bound | ⟨fragment, raw⟩
    · exact bound.read_eq ▸ bound.reads
    · rw [raw]
      refine Term.reads_raw (complete fragment (List.mem_filterMap.mpr ⟨p, hp, ?_⟩))
      rw [raw]

theorem reads_renderHaving {q : Query} (h : q.WellFormed) :
    Reads q.renderHaving (boundPlaceholders q.havings) :=
  reads_clause (by decide) fun p hp => (h.havings p hp).reads

theorem reads_renderSets {q : Query} (h : q.WellFormed) {text : String}
    (rendered : q.renderSets = .ok text) : Reads text q.sets.placeholders := by
  unfold renderSets at rendered
  split at rendered
  · cases rendered
  · cases rendered
    exact Silent.append_reads (by decide) (Assignments.reads_render h.sets)

theorem reads_renderUpdates {q : Query} (h : q.WellFormed) :
    Reads q.renderUpdates q.updates.placeholders := by
  unfold renderUpdates
  cases updates : q.updates with
  | nil => exact reads_empty
  | cons a rest =>
      have each : ∀ x ∈ a :: rest, IsName x.2.toList := updates ▸ h.updates
      exact Silent.append_reads (by decide) (Assignments.reads_render each)

/-- The clauses of a statement read as the query's own placeholders and those in what was written by
hand. -/
theorem reads_clauses {q : Query} (h : q.WellFormed) {kind : StatementKind} {texts : List String}
    (rendered : q.clauses kind = .ok texts) (complete : ∀ text ∈ q.handwritten kind, Complete text) :
    ∃ names, ReadsAll texts names ∧ ∀ name, name ∈ names ↔
      name ∈ q.ownPlaceholders kind ∨ name ∈ (q.handwritten kind).flatMap Reading.placeholders := by
  cases kind with
  | select =>
      obtain ⟨fields, hf, rendered⟩ := exists_of_bind rendered
      obtain ⟨source, hs, rendered⟩ := exists_of_bind rendered
      obtain ⟨conditions, hw, rendered⟩ := exists_of_bind rendered
      cases rendered
      have raw := List.forall_mem_append.mp complete
      refine ⟨_, .cons (Silent.append_reads (by decide) (reads_renderFields hf raw.1)) <|
        .silent (silent_renderSource hs) <| .silent (silent_joins _) <|
        .cons (reads_renderWhere h hw raw.2) <| .silent (silent_group _) <|
        .cons (reads_renderHaving h) <| .silent (silent_order _) <|
        .silent q.limit.silent_render .nil, fun name => ?_⟩
      simp only [List.mem_append, mem_read_iff, ownPlaceholders, handwritten, expressions, fragments,
        List.flatMap_append, List.append_nil]
      tauto
  | count =>
      obtain ⟨source, hs, rendered⟩ := exists_of_bind rendered
      obtain ⟨conditions, hw, rendered⟩ := exists_of_bind rendered
      cases rendered
      refine ⟨_, .silent (by decide) <| .silent (silent_renderSource hs) <| .silent (silent_joins _) <|
        .cons (reads_renderWhere h hw complete) <| .silent (silent_group _) <|
        .cons (reads_renderHaving h) .nil, fun name => ?_⟩
      simp only [List.mem_append, mem_read_iff, ownPlaceholders, handwritten, expressions, fragments,
        List.nil_append, List.append_nil]
      exact or_right_comm
  | insert =>
      obtain ⟨table, -, rendered⟩ := exists_of_bind rendered
      obtain ⟨sets, hsets, rendered⟩ := exists_of_bind rendered
      cases rendered
      refine ⟨_, .silent (Silent.append (by decide) (silent_escape table)) <|
        .cons (reads_renderSets h hsets) <| .cons (reads_renderUpdates h) .nil, fun name => ?_⟩
      simp only [List.append_nil, ownPlaceholders, handwritten, expressions, fragments,
        List.flatMap_nil, List.not_mem_nil, or_false]
  | update =>
      obtain ⟨table, -, rendered⟩ := exists_of_bind rendered
      obtain ⟨sets, hsets, rendered⟩ := exists_of_bind rendered
      obtain ⟨conditions, hw, rendered⟩ := exists_of_bind rendered
      cases rendered
      refine ⟨_, .silent (Silent.append (by decide) (silent_escape table)) <|
        .cons (reads_renderSets h hsets) <| .cons (reads_renderWhere h hw complete) <|
        .silent (silent_order _) <| .silent q.limit.silent_render .nil, fun name => ?_⟩
      simp only [List.mem_append, mem_read_iff, ownPlaceholders, handwritten, expressions, fragments,
        List.nil_append, List.append_nil, or_assoc]
  | delete =>
      obtain ⟨table, -, rendered⟩ := exists_of_bind rendered
      obtain ⟨conditions, hw, rendered⟩ := exists_of_bind rendered
      cases rendered
      refine ⟨_, .silent (Silent.append (by decide) (silent_escape table)) <|
        .cons (reads_renderWhere h hw complete) <| .silent (silent_order _) <|
        .silent q.limit.silent_render .nil, fun name => ?_⟩
      simp only [mem_read_iff, ownPlaceholders, handwritten, expressions, fragments, List.nil_append,
        List.append_nil]

/-- The text of a statement names the query's own placeholders and those in what was written by hand, if
none of that ends inside of a literal or a quoted name. -/
theorem mem_placeholders_sql_iff {q : Query} (h : q.Reachable) {kind : StatementKind} {st : Statement}
    (built : q.build kind = .ok st) (complete : ∀ text ∈ q.handwritten kind, Complete text)
    {name : String} : name ∈ Reading.placeholders st.sql ↔
      name ∈ q.ownPlaceholders kind ∨ name ∈ (q.handwritten kind).flatMap Reading.placeholders := by
  obtain ⟨texts, rendered, sql, -⟩ := of_build built
  obtain ⟨names, all, members⟩ := reads_clauses h.wellFormed rendered complete
  rw [sql, (all.intercalate_filled " " (by decide) (by decide)).names]
  exact members name

/-- The parameters of a statement are the query's own placeholders and those that the scan finds. -/
theorem mem_params_iff {q : Query} (h : q.Reachable) {kind : StatementKind} {st : Statement}
    (built : q.build kind = .ok st) {name : String} : name ∈ st.params.map (·.1) ↔
      name ∈ q.ownPlaceholders kind ∨ name ∈ (q.fragments kind).flatMap Fragment.placeholders := by
  obtain ⟨-, -, -, params⟩ := of_build built
  exact (params name).trans (mem_statementPlaceholders_iff h.wellFormed)

end Query

/-! ## Statements and their parameters -/

/-- The placeholders in the text of a statement are the names of its parameters. -/
def Statement.Exact (st : Statement) : Prop :=
  ∀ name, name ∈ Reading.placeholders st.sql ↔ name ∈ st.params.map (·.1)

namespace Query

/-- A statement whose hand-written parts end outside of literals names exactly its parameters when, apart
from the query's own placeholders, reading those parts finds the names that the scan of the conditions
finds. -/
theorem build_exact_iff {q : Query} (h : q.Reachable) {kind : StatementKind} {st : Statement}
    (built : q.build kind = .ok st) (complete : ∀ text ∈ q.handwritten kind, Complete text) :
    st.Exact ↔ ∀ name, name ∉ q.ownPlaceholders kind →
      (name ∈ (q.handwritten kind).flatMap Reading.placeholders ↔
        name ∈ (q.fragments kind).flatMap Fragment.placeholders) := by
  refine forall_congr' fun name => ?_
  rw [mem_placeholders_sql_iff h built complete, mem_params_iff h built]
  by_cases own : name ∈ q.ownPlaceholders kind
  · simp only [own, true_or, not_true_eq_false, false_implies]
  · simp only [own, false_or, not_false_eq_true, true_implies]

/-- A report over part of a table, with an expression and a condition written by hand. -/
def reportSteps : List QueryStep :=
  [.setSource "visit" none, .addField { name := "COUNT(*)", label := some "total", raw := true },
    .addWhere (.eq "site" (.text "a")), .bind "since" (.text "2024-01-01") true,
    .addRawWhere "at::date > :since OR note = 'at: :never'" .and]

def reportStatement : Statement :=
  ⟨"SELECT COUNT(*) AS \x60total\x60 FROM \x60visit\x60 " ++
      "WHERE \x60site\x60 = :site AND (at::date > :since OR note = 'at: :never')",
    [("site", .text "a"), ("since", .text "2024-01-01")]⟩

/-- Casts and literals in what was written by hand leave the statement exact. -/
theorem build_exact_of_report :
    (empty.performAll reportSteps).build .select = .ok reportStatement ∧
      (∀ text ∈ (empty.performAll reportSteps).handwritten .select, Complete text) ∧
      reportStatement.Exact := by
  have built : (empty.performAll reportSteps).build .select = .ok reportStatement := by decide +kernel
  have complete : ∀ text ∈ (empty.performAll reportSteps).handwritten .select, Complete text := by
    decide +kernel
  have same : ((empty.performAll reportSteps).handwritten .select).flatMap Reading.placeholders =
      ((empty.performAll reportSteps).fragments .select).flatMap Fragment.placeholders := by decide +kernel
  refine ⟨built, complete, (build_exact_iff ⟨reportSteps, rfl⟩ built complete).mpr fun name _ => ?_⟩
  rw [same]

/-- A placeholder in an expression among the selected fields, with a value bound to it. -/
def expressionSteps : List QueryStep :=
  [.setSource "t" none, .addField { name := "IF(a > :x, 1, 0)", raw := true }, .bind "x" (.text "5") true]

/-- Not every statement is exact: the value bound for an expression is left out. -/
theorem build_not_exact :
    ¬ ∀ (q : Query) (kind : StatementKind) (st : Statement), q.Reachable → q.build kind = .ok st →
      st.Exact := by
  intro every
  have built : (empty.performAll expressionSteps).build .select =
      .ok ⟨"SELECT IF(a > :x, 1, 0) FROM \x60t\x60", []⟩ := by decide +kernel
  have exact := every _ _ _ ⟨expressionSteps, rfl⟩ built
  exact List.not_mem_nil ((exact "x").mp (by decide +kernel))

end Query

end TableMapper
