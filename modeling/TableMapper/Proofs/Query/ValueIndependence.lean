import TableMapper.Proofs.Query.Run

/-! # Values and the text of statements

Two runs of the same steps that differ in nothing but the values passed answer alike, render alike and
build statements of the same text. The link between the two runs is a third one: `blank` puts NULL in
the place of every value that is bound, and blanking commutes with every operation on a query.
-/

namespace TableMapper

/-! ## Blanking what is passed -/

/-- The condition with NULL in place of the values it binds. An operand that stands in the text of the
statement is not bound and stays. -/
def Condition.blank (c : Condition) : Condition :=
  match c.test with
  | .compare op v => { c with test := .compare op (if op.takesLiteral then v else .null) }
  | .isIn values negated => { c with test := .isIn (values.map fun _ => .null) negated }

/-- The columns of a key with NULL in place of their values. -/
def blankKey (key : List (String × Value)) : List (String × Value) :=
  key.map fun (column, _) => (column, .null)

/-- The step with NULL in place of every value that it binds. -/
def QueryStep.blank : QueryStep → QueryStep
  | .addWhere c => .addWhere c.blank
  | .addHaving c => .addHaving c.blank
  | .addIn field values => .addIn field (values.map fun _ => .null)
  | .addWhereKeys keys => .addWhereKeys (keys.map blankKey)
  | .addSet field _ => .addSet field .null
  | .addUpdate field _ => .addUpdate field .null
  | .bind field _ unique => .bind field .null unique
  | step => step

/-- The bindings with NULL in place of every value. -/
def Bindings.blank (b : Bindings) : Bindings :=
  { b with entries := b.entries.map fun e => { e with value := .null } }

/-- The query with NULL in place of every bound value. -/
def Query.blank (q : Query) : Query := { q with bindings := q.bindings.blank }

/-! ## Bindings -/

namespace Bindings

@[simp] theorem contains_blank (b : Bindings) (placeholder : String) :
    b.blank.contains placeholder = b.contains placeholder := by
  simp only [contains, blank, List.any_map]
  rfl

@[simp] theorem size_blank (b : Bindings) : b.blank.size = b.size := by
  simp only [size, blank, List.length_map]

theorem firstFree_blank (b : Bindings) (base : String) (fuel n : Nat) :
    b.blank.firstFree base fuel n = b.firstFree base fuel n := by
  induction fuel generalizing n with
  | zero => rfl
  | succ fuel ih => simp only [firstFree, contains_blank, ih]

@[simp] theorem allocate_blank (b : Bindings) (base : String) : b.blank.allocate base = b.allocate base := by
  simp only [allocate, contains_blank, size_blank, firstFree_blank]

theorem bindFresh_blank (b : Bindings) (field : String) (v : Value) :
    b.blank.bindFresh field .null = ((b.bindFresh field v).1, (b.bindFresh field v).2.blank) := by
  simp only [bindFresh, allocate_blank]
  simp only [blank, List.map_append, List.map_cons, List.map_nil]

theorem setValue_blank (b : Bindings) (placeholder : String) (v : Value) :
    b.blank.setValue placeholder .null = (b.setValue placeholder v).blank := by
  simp only [setValue, blank, List.map_map, mk.injEq, and_true]
  apply List.map_congr_left
  intro e _
  simp only [Function.comp_apply]
  split <;> rfl

theorem bindShared_blank (b : Bindings) (field : String) (v : Value) :
    b.blank.bindShared field .null = ((b.bindShared field v).1, (b.bindShared field v).2.blank) := by
  have shared : b.blank.shared = b.shared := rfl
  simp only [bindShared, shared]
  cases b.shared.lookup field with
  | some placeholder => simp only [setValue_blank b placeholder v]
  | none => simp only [bindFresh_blank b field v]; rfl

theorem bind_blank (b : Bindings) (field : String) (v : Value) (unique : Bool) :
    b.blank.bind field .null unique = ((b.bind field v unique).1, (b.bind field v unique).2.blank) := by
  cases unique with
  | true => exact bindFresh_blank b field v
  | false => exact bindShared_blank b field v

theorem bindAll_blank (b : Bindings) (field : String) (values : List Value) :
    b.blank.bindAll field (values.map fun _ => .null) =
      ((b.bindAll field values).1, (b.bindAll field values).2.blank) := by
  induction values generalizing b with
  | nil => rfl
  | cons v values ih => simp only [List.map_cons, bindAll, bindFresh_blank b field v, ih]

end Bindings

/-! ## Conditions and keys -/

/-- A condition is refused for the same reason, or makes the same predicate. -/
theorem Condition.bind_blank (c : Condition) (b : Bindings) :
    c.blank.bind b.blank = (c.bind b).map fun (p, b) => (p, b.blank) := by
  obtain ⟨field, table, concat, test⟩ := c
  cases test with
  | compare op v =>
      cases hop : op.takesLiteral with
      | true =>
          simp only [blank, Condition.bind, hop, if_true]
          cases literal? v <;> rfl
      | false =>
          simp only [blank, Condition.bind, hop, Bool.false_eq_true, if_false, Bindings.bind_blank b _ v]
          rfl
  | isIn values negated =>
      simp only [blank, Condition.bind, List.isEmpty_map, Bindings.bindAll_blank]
      split <;> rfl

namespace Query

theorem bindKey_blank (b : Bindings) (key : List (String × Value)) :
    bindKey b.blank (blankKey key) = ((bindKey b key).1, (bindKey b key).2.blank) := by
  induction key generalizing b with
  | nil => rfl
  | cons cell key ih =>
      obtain ⟨column, v⟩ := cell
      simp only [blankKey, List.map_cons, bindKey, Bindings.bindFresh_blank b column v]
      simp only [blankKey] at ih
      simp only [ih]

theorem bindKeys_blank (b : Bindings) (keys : List (List (String × Value))) :
    bindKeys b.blank (keys.map blankKey) = ((bindKeys b keys).1, (bindKeys b keys).2.blank) := by
  induction keys generalizing b with
  | nil => rfl
  | cons key keys ih =>
      have empty : (blankKey key).isEmpty = key.isEmpty := List.isEmpty_map
      simp only [List.map_cons, bindKeys, empty, bindKey_blank, ih]
      split <;> rfl

/-! ## Steps and runs -/

theorem addWhere_blank (q : Query) (c : Condition) :
    q.blank.addWhere c.blank = (q.addWhere c).map blank := by
  simp only [addWhere, blank, Condition.bind_blank]
  cases c.bind q.bindings <;> rfl

theorem addHaving_blank (q : Query) (c : Condition) :
    q.blank.addHaving c.blank = (q.addHaving c).map blank := by
  simp only [addHaving, blank, Condition.bind_blank]
  cases c.bind q.bindings <;> rfl

theorem addWhereKeys_blank (q : Query) (keys : List (List (String × Value))) :
    q.blank.addWhereKeys (keys.map blankKey) =
      ((q.addWhereKeys keys).1, (q.addWhereKeys keys).2.blank) := by
  simp only [addWhereKeys, blank, bindKeys_blank]
  cases (bindKeys q.bindings keys).1 with
  | error e => rfl
  | ok terms => cases terms <;> rfl

theorem attempt_blank (q : Query) (changed : Except Error Query) :
    q.blank.attempt (changed.map blank) = ((q.attempt changed).1, (q.attempt changed).2.blank) := by
  cases changed <;> rfl

/-- A blanked step on a blanked query answers as the step does, and blanks what the step makes. -/
theorem perform_blank (q : Query) (step : QueryStep) :
    q.blank.perform step.blank = ((q.perform step).1, (q.perform step).2.blank) := by
  cases step with
  | addWhere c => simp only [QueryStep.blank, perform, addWhere_blank, attempt_blank]
  | addHaving c => simp only [QueryStep.blank, perform, addHaving_blank, attempt_blank]
  | addIn field values =>
      have blanked : (Condition.isIn field (values.map fun _ => .null)) =
          (Condition.isIn field values).blank := rfl
      simp only [QueryStep.blank, perform, addIn, blanked, addWhere_blank, attempt_blank]
  | addWhereKeys keys => simp only [QueryStep.blank, perform, addWhereKeys_blank]
  | addSet field v =>
      simp only [QueryStep.blank, perform, addSet, blank, Bindings.bindShared_blank q.bindings field v]
  | addUpdate field v =>
      simp only [QueryStep.blank, perform, addUpdate, blank, Bindings.bindShared_blank q.bindings _ v]
  | bind field v unique =>
      simp only [QueryStep.blank, perform, bind, blank, Bindings.bind_blank q.bindings field v]
  | setSource | addField | setCalcFoundRows | addRawWhere | addJoin | addOrder | addGroup | setLimit
  | setListIndex | clear => rfl

theorem run_blank (q : Query) (steps : List QueryStep) :
    q.blank.run (steps.map QueryStep.blank) = ((q.run steps).1, (q.run steps).2.blank) := by
  induction steps generalizing q with
  | nil => rfl
  | cons step steps ih => simp only [List.map_cons, run, perform_blank, ih]

/-! ## What a query shows -/

/-- The parts of a query that can be rendered on their own. -/
inductive Part where
  | fields (prefixed onlyPrimary : Bool)
  | source
  | wheres (required : Bool)
  | joins
  | groups
  | havings
  | orders
  | limit
  | sets
  | updates

/-- A part of a query as text. -/
def render (q : Query) : Part → Except Error String
  | .fields prefixed onlyPrimary => q.renderFields prefixed onlyPrimary
  | .source => q.renderSource
  | .wheres required => q.renderWhere required
  | .joins => .ok (renderJoins q.joins)
  | .groups => .ok (renderGroup q.groups)
  | .havings => .ok q.renderHaving
  | .orders => .ok (renderOrder q.orders)
  | .limit => .ok q.limit.render
  | .sets => q.renderSets
  | .updates => .ok q.renderUpdates

/-- A statement without its values: its text, and the names of its parameters in order. -/
def outline (s : Statement) : String × List String := (s.sql, s.params.map (·.1))

theorem render_blank (q : Query) (part : Part) : q.blank.render part = q.render part := by
  cases part <;> rfl

theorem clauses_blank (q : Query) (kind : StatementKind) : q.blank.clauses kind = q.clauses kind := by
  cases kind <;> rfl

theorem statementPlaceholders_blank (q : Query) (kind : StatementKind) :
    q.blank.statementPlaceholders kind = q.statementPlaceholders kind := by
  cases kind <;> rfl

theorem build_blank (q : Query) (kind : StatementKind) :
    (q.blank.build kind).map outline = (q.build kind).map outline := by
  have bound : ∀ name, q.blank.bindings.contains name = q.bindings.contains name :=
    Bindings.contains_blank q.bindings
  simp only [build, clauses_blank, statementPlaceholders_blank, bound]
  cases q.clauses kind with
  | error e => rfl
  | ok clauses =>
      simp only [Bind.bind, Except.bind]
      split
      · rfl
      · simp only [Except.map, outline, blank, Bindings.blank, List.filter_map, List.map_map]
        rfl

/-- Values never reach the text of a statement. Of two runs of the same steps with other values, every
step answers alike, every part renders alike, and each kind of statement is refused alike or has the same
text and the same parameter names. -/
theorem run_text_independent_of_values (steps others : List QueryStep)
    (same : steps.map QueryStep.blank = others.map QueryStep.blank) :
    (empty.run steps).1 = (empty.run others).1 ∧
      (∀ part, (empty.run steps).2.render part = (empty.run others).2.render part) ∧
      ∀ kind, ((empty.run steps).2.build kind).map outline =
        ((empty.run others).2.build kind).map outline := by
  -- both runs blank to the same one
  have blanked : ((empty.run steps).1, (empty.run steps).2.blank) =
      ((empty.run others).1, (empty.run others).2.blank) := by
    rw [← run_blank, ← run_blank, same]
  obtain ⟨answers, states⟩ := Prod.mk.injEq .. ▸ blanked
  refine ⟨answers, fun part => ?_, fun kind => ?_⟩
  · rw [← render_blank, states, render_blank]
  · rw [← build_blank, states, build_blank]

/-- A look-up and a write, with one value of every kind that is passed. -/
def stepsWith (name : String) (n : Integer) : List QueryStep :=
  [.setSource "user" none, .addWhere (.eq "name" (.text name)), .addIn "id" [.integer n, .text name],
    .addWhere { field := "left_at", concat := .or, test := .compare .is .null },
    .addWhereKeys [[("org", .integer n), ("role", .text name)], []],
    .addHaving { field := "total", test := .compare .greater (.integer n) },
    .addSet "name" (.text name), .addUpdate "name" (.text name), .bind "name" (.text name) false]

/-- A value that would end the statement, were it in the text, leaves all of it as a harmless one does. -/
theorem run_text_of_hostile_value :
    (stepsWith "ann" (.one .int64)).map QueryStep.blank =
        (stepsWith "'; DROP TABLE user; --" (.zero .int8)).map QueryStep.blank ∧
      (empty.run (stepsWith "ann" (.one .int64))).1 =
        (empty.run (stepsWith "'; DROP TABLE user; --" (.zero .int8))).1 ∧
      (∀ part, (empty.run (stepsWith "ann" (.one .int64))).2.render part =
        (empty.run (stepsWith "'; DROP TABLE user; --" (.zero .int8))).2.render part) ∧
      ∀ kind, ((empty.run (stepsWith "ann" (.one .int64))).2.build kind).map outline =
        ((empty.run (stepsWith "'; DROP TABLE user; --" (.zero .int8))).2.build kind).map outline :=
  ⟨rfl, run_text_independent_of_values _ _ rfl⟩

end Query

end TableMapper
