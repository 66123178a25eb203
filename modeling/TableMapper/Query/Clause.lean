import TableMapper.Query.Condition

/-! # Clauses

The parts of a statement, each as the list of what was added to it. A clause renders with its keyword,
and as nothing when nothing was added.
-/

namespace TableMapper

/-- A selected field. -/
structure Field where
  name : String
  table : Option String := none
  label : Option String := none
  /-- Whether the name is an expression that stands in the statement as it is. -/
  raw : Bool := false
  primary : Bool := false
  deriving DecidableEq, Repr

/-- A field as text. One without a table is qualified with the given one. -/
def Field.render (f : Field) (defaultTable : Option String) : String :=
  let sql := if f.raw then f.name else Identifier.escape (Identifier.qualify (f.table.or defaultTable) f.name)
  match f.label with
  | some label => sql ++ " AS " ++ Identifier.escape label
  | none => sql

/-- The fields of a SELECT. -/
structure FieldList where
  fields : List Field
  /-- Whether the database counts the rows that a LIMIT leaves out. -/
  calcFoundRows : Bool
  deriving DecidableEq, Repr

namespace FieldList

def empty : FieldList := ⟨[], false⟩

/-- The list with one more field at its end. -/
def add (l : FieldList) (f : Field) : FieldList := { l with fields := l.fields ++ [f] }

/-- The fields as text; without any, all columns. -/
def renderFields (fields : List Field) (defaultTable : Option String) : String :=
  if fields.isEmpty then
    match defaultTable with
    | some table => Identifier.escape (table ++ ".*")
    | none => "*"
  else ", ".intercalate (fields.map (·.render defaultTable))

/-- The list as text, or only its primary key fields. -/
def render (l : FieldList) (defaultTable : Option String) (onlyPrimary : Bool) : Except Error String :=
  let fields := if onlyPrimary then l.fields.filter (·.primary) else l.fields
  if onlyPrimary = true ∧ fields.isEmpty = true then .error (.invalidQuery .noPrimaryField)
  else
    .ok ((if l.calcFoundRows then "SQL_CALC_FOUND_ROWS " else "") ++ renderFields fields defaultTable)

end FieldList

/-- A joined table under an alias, with the pair of fields that are equal. -/
structure Join where
  type : JoinType
  table : String
  localAlias : String
  localField : String
  remoteAlias : String
  remoteField : String
  deriving DecidableEq, Repr

/-- A join as text. -/
def Join.render (j : Join) : String :=
  j.type.sql ++ " " ++ Identifier.escape j.table ++ " AS " ++ Identifier.escape j.remoteAlias ++
    " ON " ++ Identifier.escape j.localAlias ++ "." ++ Identifier.escape j.localField ++
    " = " ++ Identifier.escape j.remoteAlias ++ "." ++ Identifier.escape j.remoteField

/-- The joins of a statement. -/
def renderJoins (joins : List Join) : String := " ".intercalate (joins.map Join.render)

/-- Predicates as text, each after the first with its concatenator in front. -/
def renderPredicates : List Predicate → String
  | [] => ""
  | p :: ps => p.term.render ++ String.join (ps.map fun q => " " ++ q.concat.sql ++ " " ++ q.term.render)

def renderClause (keyword : String) (predicates : List Predicate) : String :=
  if predicates.isEmpty then "" else keyword ++ " " ++ renderPredicates predicates

/-- The placeholders that predicates were bound to. -/
def boundPlaceholders (predicates : List Predicate) : List String :=
  predicates.flatMap (·.term.placeholders)

/-- The fragments written by hand among predicates. -/
def rawFragments (predicates : List Predicate) : List String :=
  predicates.filterMap fun p =>
    match p.term with
    | .raw fragment => some fragment
    | _ => none

/-- An ORDER BY clause. -/
def renderOrder (terms : List (String × Direction)) : String :=
  if terms.isEmpty then ""
  else "ORDER BY " ++ ", ".intercalate (terms.map fun (field, d) => Identifier.escape field ++ " " ++ d.sql)

/-- A GROUP BY clause. -/
def renderGroup (fields : List String) : String :=
  if fields.isEmpty then "" else "GROUP BY " ++ ", ".intercalate (fields.map Identifier.escape)

/-- How many rows a statement is limited to, and how many it passes over before. -/
structure Limit where
  count : Option Nat
  offset : Option Nat
  deriving DecidableEq, Repr

def Limit.none : Limit := ⟨.none, .none⟩

/-- A LIMIT clause. -/
def Limit.render (l : Limit) : String :=
  match l.count, l.offset with
  | .none, _ => ""
  | some count, .none => s!"LIMIT {count}"
  | some count, some offset => s!"LIMIT {count} OFFSET {offset}"

/-- Fields with the placeholders assigned to them, one for a field. -/
abbrev Assignments := List (String × String)

namespace Assignments

/-- Assigns a placeholder to a field, in place of the one it had. -/
def assign (field placeholder : String) : Assignments → Assignments
  | [] => [(field, placeholder)]
  | (other, old) :: rest =>
    if other = field then (other, placeholder) :: rest else (other, old) :: assign field placeholder rest

/-- Assignments without a keyword. -/
def render (a : Assignments) : String :=
  ", ".intercalate (a.map fun (field, placeholder) => Identifier.escape field ++ " = " ++ reference placeholder)

def placeholders (a : Assignments) : List String := a.map (·.2)

end Assignments

end TableMapper
