import TableMapper.Exchange.Value
import TableMapper.Query.Step

/-! # Queries in JSON

The parts of queries and the steps that change them are objects whose members are named for what they hold.
-/

namespace TableMapper

instance : OfDocument Concat where
  ofDocument? j := (j.read? "or").map fun (alternative : Bool) => if alternative then .or else .and

instance : OfDocument Direction where
  ofDocument? j := (j.read? "desc").map fun (down : Bool) => if down then .descending else .ascending

instance : OfDocument Field where
  ofDocument? j := do
    pure { name := ← j.read? "name", table := ← j.read? "table", label := ← j.read? "alias"
           raw := ← j.read? "raw", primary := ← j.read? "primary" }

/-- A test is a list of values, of those that the field is or is not one of, or an operator with a value. -/
instance : OfDocument Test where
  ofDocument? j := do
    match j.member? "in", j.member? "not_in" with
    | some values, _ => pure (.isIn (← ofDocument? values) false)
    | none, some values => pure (.isIn (← ofDocument? values) true)
    | none, none =>
      let op : Option String ← j.read? "op"
      pure (.compare (← Operator.ofText? (op.getD "=")) (← j.read? "value"))

instance : OfDocument Condition where
  ofDocument? j := do
    pure { field := ← j.read? "field", table := ← j.read? "prefix", concat := ← ofDocument? j
           test := ← ofDocument? j }

instance : OfDocument Join where
  ofDocument? j := do
    let name : Option String ← j.read? "type"
    let (localAlias, localField, remoteField) :=
      match ← j.read? "on" with
      | [localAlias, localField, remoteField] => (localAlias, localField, remoteField)
      | _ => ("", "", "")
    pure { type := ← JoinType.ofName? (name.getD "inner"), table := ← j.read? "table"
           localAlias, localField, remoteAlias := ← j.read? "alias", remoteField }

/-- A step is an object that says what to do. -/
instance : OfDocument QueryStep where
  ofDocument? j := do
    match ← j.read? "do" with
    | "set_from" => pure (.setSource (← j.read? "table") (← j.read? "alias"))
    | "add_field" => pure (.addField (← ofDocument? j))
    | "set_calc_found_rows" => pure (.setCalcFoundRows (← j.read? "on"))
    | "add_where" => pure (.addWhere (← ofDocument? j))
    | "add_having" => pure (.addHaving (← ofDocument? j))
    | "add_in" => pure (.addIn (← j.read? "field") (← j.read? "values"))
    | "add_raw_where" => pure (.addRawWhere (← j.read? "sql") (← ofDocument? j))
    | "add_where_keys" => pure (.addWhereKeys (← j.read? "keys"))
    | "add_join" => pure (.addJoin (← ofDocument? j))
    | "add_order" => pure (.addOrder (← j.read? "field") (← ofDocument? j))
    | "add_group" => pure (.addGroup (← j.read? "field"))
    | "set_limit" => pure (.setLimit (← j.read? "limit") (← j.read? "offset"))
    | "add_set" => pure (.addSet (← j.read? "field") (← j.read? "value"))
    | "add_update" => pure (.addUpdate (← j.read? "field") (← j.read? "value"))
    | "bind" => pure (.bind (← j.read? "field") (← j.read? "value") (← j.read? "unique"))
    | "set_list_index" => pure (.setListIndex (← j.read? "field"))
    | "clear" => pure .clear
    | _ => none

namespace StatementKind

/-- The kinds of statement under their names. -/
def named : List (String × StatementKind) :=
  [("select", .select), ("count", .count), ("insert", .insert), ("update", .update), ("delete", .delete)]

end StatementKind

instance : OfDocument StatementKind where
  ofDocument?
    | .text name => StatementKind.named.lookup name
    | _ => none

instance : ToDocument Statement where
  toDocument s := .ofMembers [("sql", s.sql), ("params", s.params)]

instance : ToDocument Binding where
  toDocument b := .array [b.placeholder, b.field, b.value]

end TableMapper
