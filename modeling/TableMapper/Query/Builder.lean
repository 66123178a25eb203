import TableMapper.Query.Clause
import TableMapper.Query.Fragment

/-! # Queries

A query gathers clauses and bound values, and renders them into statements of five kinds. Values never
reach the text of a statement; they travel beside it under the names of placeholders.
-/

namespace TableMapper

/-- The kinds of statement that a query renders into. -/
inductive StatementKind where
  | select | count | insert | update | delete
  deriving DecidableEq, Repr

/-- A rendered statement: its text with named placeholders, and the values bound to them. -/
structure Statement where
  sql : String
  params : List (String × Value)
  deriving DecidableEq

namespace Statement

/-- A statement written by hand, with nothing bound yet. -/
def ofText (sql : String) : Statement := ⟨sql, []⟩

/-- The statement with one more value bound. -/
def bind (s : Statement) (name : String) (v : Value) : Statement := { s with params := s.params ++ [(name, v)] }

/-- The value bound to a name. -/
def param? (s : Statement) (name : String) : Option Value := s.params.lookup name

/-- The bound values without their names. -/
def values (s : Statement) : List Value := s.params.map (·.2)

end Statement

/-- Clauses and bound values. -/
structure Query where
  fields : FieldList
  source : Option (String × Option String)
  wheres : List Predicate
  joins : List Join
  orders : List (String × Direction)
  groups : List String
  havings : List Predicate
  limit : Limit
  sets : Assignments
  updates : Assignments
  bindings : Bindings
  listIndex : Option String
  deriving DecidableEq

namespace Query

/-- The query to which nothing has been added. -/
def empty : Query :=
  { fields := .empty, source := none, wheres := [], joins := [], orders := [], groups := []
    havings := [], limit := .none, sets := [], updates := [], bindings := .empty, listIndex := none }

/-! ## Adding to a query -/

/-- Adds a field to the selected ones. -/
def addField (q : Query) (f : Field) : Query := { q with fields := q.fields.add f }

/-- Sets the table that the statement is about, with an optional alias. -/
def setSource (q : Query) (table : String) (label : Option String) : Query :=
  { q with source := some (table, label) }

/-- Says whether the database counts the rows that a LIMIT leaves out. -/
def setCalcFoundRows (q : Query) (on : Bool) : Query :=
  { q with fields := { q.fields with calcFoundRows := on } }

/-- Adds a condition to the WHERE clause. -/
def addWhere (q : Query) (c : Condition) : Except Error Query :=
  match c.bind q.bindings with
  | .ok (p, b) => .ok { q with wheres := q.wheres ++ [p], bindings := b }
  | .error e => .error e

/-- Adds the condition that a field is one of some values. -/
def addIn (q : Query) (field : String) (values : List Value) : Except Error Query :=
  q.addWhere (.isIn field values)

/-- Adds a fragment written by hand to the WHERE clause. -/
def addRawWhere (q : Query) (fragment : String) (concat : Concat) : Query :=
  { q with wheres := q.wheres ++ [⟨concat, .raw fragment⟩] }

/-- Adds a condition to the HAVING clause. -/
def addHaving (q : Query) (c : Condition) : Except Error Query :=
  match c.bind q.bindings with
  | .ok (p, b) => .ok { q with havings := q.havings ++ [p], bindings := b }
  | .error e => .error e

/-- Binds the values of one key, and returns its columns with their placeholders. -/
def bindKey (b : Bindings) : List (String × Value) → List (String × String) × Bindings
  | [] => ([], b)
  | (column, v) :: rest =>
    let (placeholder, b) := b.bindFresh column v
    let (terms, b) := bindKey b rest
    ((Identifier.escape column, placeholder) :: terms, b)

/-- Binds the values of several keys. A key without columns stops the binding where it stands. -/
def bindKeys (b : Bindings) : List (List (String × Value)) →
    Except Error (List (List (String × String))) × Bindings
  | [] => (.ok [], b)
  | key :: keys =>
    if key.isEmpty then (.error (.invalidQuery .emptyLookupKey), b)
    else
      let (terms, b) := bindKey b key
      let (rest, b) := bindKeys b keys
      (rest.map (terms :: ·), b)

/-- Adds the condition that a row has one of several keys. What was bound before a key is refused stays
bound. -/
def addWhereKeys (q : Query) (keys : List (List (String × Value))) : Except Error Unit × Query :=
  let (terms, b) := bindKeys q.bindings keys
  let q := { q with bindings := b }
  match terms with
  | .error e => (.error e, q)
  | .ok [] => (.error (.emptyInValues "keys"), q)
  | .ok keys => (.ok (), { q with wheres := q.wheres ++ [⟨.and, .anyKey keys⟩] })

def addJoin (q : Query) (j : Join) : Query := { q with joins := q.joins ++ [j] }

/-- Adds a field to sort by. -/
def addOrder (q : Query) (field : String) (d : Direction) : Query :=
  { q with orders := q.orders ++ [(field, d)] }

def addGroup (q : Query) (field : String) : Query := { q with groups := q.groups ++ [field] }

/-- Limits the number of rows. -/
def setLimit (q : Query) (count : Nat) (offset : Option Nat) : Query :=
  { q with limit := ⟨some count, offset⟩ }

/-- Assigns a value to a column that is written. -/
def addSet (q : Query) (field : String) (v : Value) : Query :=
  let (placeholder, b) := q.bindings.bindShared field v
  { q with sets := q.sets.assign field placeholder, bindings := b }

/-- Assigns a value to a column that is written when the row exists already. -/
def addUpdate (q : Query) (field : String) (v : Value) : Query :=
  let (placeholder, b) := q.bindings.bindShared (Identifier.qualify (some "update") field) v
  { q with updates := q.updates.assign field placeholder, bindings := b }

/-- Binds a value by hand and returns the name of its placeholder. -/
def bind (q : Query) (field : String) (v : Value) (unique : Bool) : String × Query :=
  let (placeholder, b) := q.bindings.bind field v unique
  (placeholder, { q with bindings := b })

/-- Sets the field whose values are the keys of an indexed result. -/
def setListIndex (q : Query) (field : String) : Query := { q with listIndex := some field }

/-! ## Rendering -/

/-- The name that columns of the source are qualified with: its alias, or the table. -/
def sourceName (q : Query) : Option String := q.source.map fun (table, label) => label.getD table

/-- The selected fields as text. -/
def renderFields (q : Query) (prefixed onlyPrimary : Bool) : Except Error String :=
  q.fields.render (if prefixed then q.sourceName else none) onlyPrimary

/-- The FROM clause. -/
def renderSource (q : Query) : Except Error String :=
  match q.source with
  | some (table, some label) =>
    .ok ("FROM " ++ Identifier.escape table ++ " AS " ++ Identifier.escape label)
  | some (table, none) => .ok ("FROM " ++ Identifier.escape table)
  | none => .error (.invalidQuery .noSource)

/-- The table that is written. -/
def target (q : Query) : Except Error String :=
  match q.source with
  | some (table, _) => .ok table
  | none => .error (.invalidQuery .noTarget)

/-- The WHERE clause; it may be required not to be empty. -/
def renderWhere (q : Query) (required : Bool) : Except Error String :=
  if required = true ∧ q.wheres.isEmpty = true then .error .emptyWhereClause
  else .ok (renderClause "WHERE" q.wheres)

def renderHaving (q : Query) : String := renderClause "HAVING" q.havings

/-- The SET clause, which must not be empty. -/
def renderSets (q : Query) : Except Error String :=
  if q.sets.isEmpty then .error .emptySetClause else .ok ("SET " ++ q.sets.render)

/-- What is written when the row exists already. -/
def renderUpdates (q : Query) : String :=
  if q.updates.isEmpty then "" else "ON DUPLICATE KEY UPDATE " ++ q.updates.render

/-- The placeholders that predicates refer to, those of hand-written fragments last. -/
def referenced (predicates : List Predicate) : List String :=
  boundPlaceholders predicates ++ (rawFragments predicates).flatMap Fragment.placeholders

/-- The clauses of a statement, in order. -/
def clauses (q : Query) : StatementKind → Except Error (List String)
  | .select => do
    let fields ← q.renderFields (!q.joins.isEmpty) false
    let source ← q.renderSource
    let where' ← q.renderWhere false
    pure ["SELECT " ++ fields, source, renderJoins q.joins, where', renderGroup q.groups,
      q.renderHaving, renderOrder q.orders, q.limit.render]
  | .count => do
    let source ← q.renderSource
    let where' ← q.renderWhere false
    pure ["SELECT COUNT(*) AS \x60count\x60", source, renderJoins q.joins, where',
      renderGroup q.groups, q.renderHaving]
  | .insert => do
    let table ← q.target
    let sets ← q.renderSets
    pure ["INSERT INTO " ++ Identifier.escape table, sets, q.renderUpdates]
  | .update => do
    let table ← q.target
    let sets ← q.renderSets
    let where' ← q.renderWhere true
    pure ["UPDATE " ++ Identifier.escape table, sets, where', renderOrder q.orders, q.limit.render]
  | .delete => do
    let table ← q.target
    let where' ← q.renderWhere true
    pure ["DELETE FROM " ++ Identifier.escape table, where', renderOrder q.orders, q.limit.render]

/-- The placeholders that a statement refers to. -/
def statementPlaceholders (q : Query) : StatementKind → List String
  | .select => referenced q.wheres ++ referenced q.havings
  | .count => referenced q.wheres ++ referenced q.havings
  | .insert => q.sets.placeholders ++ q.updates.placeholders
  | .update => q.sets.placeholders ++ referenced q.wheres
  | .delete => referenced q.wheres

/-- Renders a statement. It carries the values of the placeholders it refers to and no others; each of
them must be bound. -/
def build (q : Query) (kind : StatementKind) : Except Error Statement := do
  let clauses ← q.clauses kind
  let names := q.statementPlaceholders kind
  match names.find? fun name => !q.bindings.contains name with
  | some name => .error (.invalidQuery (.unbound name))
  | none =>
    let bound := q.bindings.entries.filter fun b => names.contains b.placeholder
    .ok ⟨" ".intercalate (clauses.filter fun c => !c.isEmpty), bound.map fun b => (b.placeholder, b.value)⟩

end Query

end TableMapper
