import TableMapper.Query.Builder

/-! # Steps that change a query

The operations on queries as data, so that a query can be described by the steps that made it.
-/

namespace TableMapper

/-- A change to a query. -/
inductive QueryStep where
  | setSource (table : String) (label : Option String)
  | addField (f : Field)
  | setCalcFoundRows (on : Bool)
  | addWhere (c : Condition)
  | addHaving (c : Condition)
  | addIn (field : String) (values : List Value)
  | addRawWhere (fragment : String) (concat : Concat)
  | addWhereKeys (keys : List (List (String × Value)))
  | addJoin (j : Join)
  | addOrder (field : String) (d : Direction)
  | addGroup (field : String)
  | setLimit (count : Nat) (offset : Option Nat)
  | addSet (field : String) (v : Value)
  | addUpdate (field : String) (v : Value)
  | bind (field : String) (v : Value) (unique : Bool)
  | setListIndex (field : String)
  | clear
  deriving DecidableEq

namespace Query

/-- The query after a change that may be refused; a refused change leaves it as it was. -/
def attempt (q : Query) (changed : Except Error Query) : Except Error (Option String) × Query :=
  match changed with
  | .ok q' => (.ok none, q')
  | .error e => (.error e, q)

/-- Changes a query. A binding answers with the name of its placeholder. -/
def perform (q : Query) : QueryStep → Except Error (Option String) × Query
  | .setSource table label => (.ok none, q.setSource table label)
  | .addField f => (.ok none, q.addField f)
  | .setCalcFoundRows on => (.ok none, q.setCalcFoundRows on)
  | .addWhere c => q.attempt (q.addWhere c)
  | .addHaving c => q.attempt (q.addHaving c)
  | .addIn field values => q.attempt (q.addIn field values)
  | .addRawWhere fragment concat => (.ok none, q.addRawWhere fragment concat)
  | .addWhereKeys keys =>
    let (result, q) := q.addWhereKeys keys
    (result.map fun _ => none, q)
  | .addJoin j => (.ok none, q.addJoin j)
  | .addOrder field d => (.ok none, q.addOrder field d)
  | .addGroup field => (.ok none, q.addGroup field)
  | .setLimit count offset => (.ok none, q.setLimit count offset)
  | .addSet field v => (.ok none, q.addSet field v)
  | .addUpdate field v => (.ok none, q.addUpdate field v)
  | .bind field v unique =>
    let (placeholder, q) := q.bind field v unique
    (.ok (some placeholder), q)
  | .setListIndex field => (.ok none, q.setListIndex field)
  | .clear => (.ok none, .empty)

/-- The query after several changes, refused ones included. -/
def performAll (q : Query) (steps : List QueryStep) : Query :=
  steps.foldl (fun q step => (q.perform step).2) q

end Query

end TableMapper
