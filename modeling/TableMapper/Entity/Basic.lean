import TableMapper.Row

/-! # Entities

A type whose values are read from rows of a result, and a type whose values are rows of a table: what the
statements about a table need to know of it.
-/

namespace TableMapper

/-- A type whose values are read from rows. -/
class Decodable (α : Type) where
  /-- The columns that are read. -/
  columns : List String
  ofRow : Row → Except Error α

/-- A type whose values are rows of a table. -/
class Entity (α : Type) extends Decodable α where
  table : String
  /-- The columns of the primary key, in order. -/
  primaryKey : List String
  /-- The column that the database numbers. -/
  autoIncrement : Option String
  /-- Every column with its value. -/
  values : α → List (String × Value)
  /-- Takes over the number that the database gave a new row. -/
  setGeneratedId : α → Nat → α

namespace Entity

variable {α : Type} [Entity α]

/-- The columns of the primary key with their values. -/
def keyValues (e : α) : List (String × Value) :=
  (values e).filter fun (column, _) => (primaryKey α).contains column

/-- The columns that a new row is written with. The database numbers the others. -/
def insertValues (e : α) : List (String × Value) :=
  (values e).filter fun (column, _) => some column != autoIncrement α

/-- The columns that may change while the key of a row stays. -/
def updateValues (e : α) : List (String × Value) :=
  (values e).filter fun (column, _) => !(primaryKey α).contains column

/-- The key of an entity as one text. -/
def keyText (e : α) : String := ".".intercalate ((keyValues e).map fun (_, v) => v.keyText)

end Entity

end TableMapper
