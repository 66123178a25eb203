import TableMapper.Schema.Column

/-! # Table definitions

A table as a script defines it: columns with options, and constraints on the table as a whole. What a
definition says of its columns is one description for each, in the same order.
-/

namespace TableMapper

/-- What the definition of a column says beyond name and type. -/
inductive ColumnOption where
  | notNull
  | null
  /-- A default value as it is written. -/
  | default (text : String)
  | primaryKey
  | unique
  | autoIncrement
  /-- Anything that does not describe the column, such as a comment. -/
  | other
  deriving DecidableEq, Repr

/-- A column as a table defines it. -/
structure ColumnDefinition where
  name : String
  type : String
  options : List ColumnOption
  deriving DecidableEq, Repr

/-- What a table says of its columns together. The columns of a key are given as they are written. -/
inductive TableConstraint where
  | primaryKey (columns : List String)
  | unique (columns : List String)
  /-- Anything that does not describe columns, such as an index. -/
  | other
  deriving DecidableEq, Repr

/-- A table as a script defines it. -/
structure TableDefinition where
  name : String
  columns : List ColumnDefinition
  constraints : List TableConstraint
  deriving DecidableEq, Repr

namespace SchemaColumn

/-- The column as part of the primary key, which holds no NULL. -/
def makePrimary (c : SchemaColumn) : SchemaColumn := { c with key := .primary, nullable := false }

/-- The column as a unique key, unless it has a role already. -/
def makeUnique (c : SchemaColumn) : SchemaColumn :=
  match c.key with
  | .none => { c with key := .unique }
  | _ => c

end SchemaColumn

namespace ColumnOption

/-- What an option says of a column. Later options have the last word. -/
def apply (c : SchemaColumn) : ColumnOption → SchemaColumn
  | notNull => { c with nullable := false }
  | null => { c with nullable := true }
  | default text => { c with defaultText := some text }
  | primaryKey => c.makePrimary
  | unique => c.makeUnique
  | autoIncrement => { c with extra := if c.extra.isEmpty then "auto_increment" else c.extra ++ " auto_increment" }
  | other => c

end ColumnOption

/-- What a definition says of its column, the table apart. -/
def ColumnDefinition.describe (c : ColumnDefinition) : SchemaColumn :=
  c.options.foldl ColumnOption.apply { name := c.name, type := c.type, nullable := true }

/-- Changes the first column of a name. -/
def changeNamed (name : String) (change : SchemaColumn → SchemaColumn) : List SchemaColumn → List SchemaColumn
  | [] => []
  | c :: cs => if c.name = name then change c :: cs else c :: changeNamed name change cs

namespace TableConstraint

/-- What a constraint says of the columns of its table. A unique key of several columns says nothing of
any one of them. -/
def apply (columns : List SchemaColumn) : TableConstraint → List SchemaColumn
  | primaryKey names => names.foldl (fun cs name => changeNamed name SchemaColumn.makePrimary cs) columns
  | unique [name] => changeNamed name SchemaColumn.makeUnique columns
  | unique _ => columns
  | other => columns

end TableConstraint

/-- What a definition says of the columns of its table. -/
def TableDefinition.describe (t : TableDefinition) : List SchemaColumn :=
  t.constraints.foldl TableConstraint.apply (t.columns.map ColumnDefinition.describe)

end TableMapper
