import TableMapper.Text.Basic

/-! # Described columns

What a schema says of the columns of a table, before their types are read.
-/

namespace TableMapper

/-- The part that a column has in the keys of its table. -/
inductive KeyRole where
  | none | primary | unique
  deriving DecidableEq, Repr

namespace KeyRole

/-- How the database shows a role. -/
def name : KeyRole → String
  | none => ""
  | primary => "PRI"
  | unique => "UNI"

/-- The role that the database shows, in any case; other marks stand for no role. -/
def ofName (s : String) : KeyRole :=
  let shown := (Text.trim s).toUpper
  if shown = "PRI" then primary else if shown = "UNI" then unique else none

end KeyRole

/-- A column as a schema describes it. -/
structure SchemaColumn where
  name : String
  /-- The type as it is written in the schema. -/
  type : String
  nullable : Bool := false
  key : KeyRole := .none
  /-- The default value as it is written in the schema. -/
  defaultText : Option String := none
  /-- Further attributes, such as `auto_increment`. -/
  extra : String := ""
  deriving DecidableEq, Repr

namespace SchemaColumn

/-- Whether the column is part of the primary key. -/
def isPrimary (c : SchemaColumn) : Bool := c.key == .primary

/-- Whether the database numbers new rows in the column. -/
def isAutoIncrement (c : SchemaColumn) : Bool := Text.occursIn "auto_increment" c.extra.toLower

end SchemaColumn

end TableMapper
