import TableMapper.Error
import TableMapper.Query.Bindings

/-! # Conditions and predicates

A condition is what a caller asks for: a field, a test and its values. Binding the values turns it into a
predicate, which holds placeholders only and can be rendered.
-/

namespace TableMapper

/-- What a condition tests about a field. -/
inductive Test where
  | compare (op : Operator) (v : Value)
  | isIn (values : List Value) (negated : Bool)
  deriving DecidableEq

/-- A condition on a field. -/
structure Condition where
  field : String
  table : Option String := none
  concat : Concat := .and
  test : Test
  deriving DecidableEq

namespace Condition

/-- The condition that a field equals a value. -/
def eq (field : String) (v : Value) : Condition := { field, test := .compare .eq v }

def isIn (field : String) (values : List Value) : Condition := { field, test := .isIn values false }

end Condition

/-- A predicate without its concatenator, its columns already between backticks. -/
inductive Term where
  | compare (column : String) (op : Operator) (placeholder : String)
  /-- A comparison with NULL or a truth value. -/
  | literal (column : String) (op : Operator) (word : String)
  | isIn (column : String) (negated : Bool) (placeholders : List String)
  /-- One of several keys, each a list of columns with placeholders. -/
  | anyKey (keys : List (List (String × String)))
  /-- A fragment written by hand. -/
  | raw (fragment : String)
  deriving DecidableEq

/-- A predicate of a WHERE or HAVING clause. -/
structure Predicate where
  concat : Concat
  term : Term
  deriving DecidableEq

namespace Condition

/-- NULL or a truth value as it stands in a statement. -/
def literal? : Value → Option String
  | .null => some "NULL"
  | .bool true => some "TRUE"
  | .bool false => some "FALSE"
  | _ => none

/-- Binds the values of a condition. A condition that is refused binds nothing. -/
def bind (c : Condition) (b : Bindings) : Except Error (Predicate × Bindings) :=
  let field := Identifier.qualify c.table c.field
  let column := Identifier.escape field
  match c.test with
  | .compare op v =>
    if op.takesLiteral then
      match literal? v with
      | some word => .ok (⟨c.concat, .literal column op word⟩, b)
      | none => .error (.invalidQuery (.literalOperand field op v.typeName))
    else
      let (placeholder, b) := b.bind field v true
      .ok (⟨c.concat, .compare column op placeholder⟩, b)
  | .isIn values negated =>
    if values.isEmpty then .error (.emptyInValues field)
    else
      let (placeholders, b) := b.bindAll field values
      .ok (⟨c.concat, .isIn column negated placeholders⟩, b)

end Condition

def reference (placeholder : String) : String := ":" ++ placeholder

namespace Term

def renderKeyColumn : String × String → String
  | (column, placeholder) => column ++ " = " ++ reference placeholder

/-- One key: its columns, in parentheses if there are several. -/
def renderKey (key : List (String × String)) : String :=
  let terms := " AND ".intercalate (key.map renderKeyColumn)
  if key.length = 1 then terms else "(" ++ terms ++ ")"

/-- A predicate as text. -/
def render : Term → String
  | .compare column op placeholder => column ++ " " ++ op.sql ++ " " ++ reference placeholder
  | .literal column op word => column ++ " " ++ op.sql ++ " " ++ word
  | .isIn column negated placeholders =>
    column ++ (if negated then " NOT IN (" else " IN (") ++
      ", ".intercalate (placeholders.map reference) ++ ")"
  | .anyKey keys => "(" ++ " OR ".intercalate (keys.map renderKey) ++ ")"
  | .raw fragment => "(" ++ fragment ++ ")"

/-- The placeholders that a predicate was bound to. -/
def placeholders : Term → List String
  | .compare _ _ placeholder => [placeholder]
  | .literal .. => []
  | .isIn _ _ placeholders => placeholders
  | .anyKey keys => keys.flatMap fun key => key.map (·.2)
  | .raw _ => []

end Term

end TableMapper
