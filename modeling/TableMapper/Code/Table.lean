import TableMapper.Code.Error
import TableMapper.Code.Identifier
import TableMapper.Code.Lines
import TableMapper.Code.TypeSpelling
import TableMapper.Config.Resolution
import TableMapper.Schema.Column

/-! # Tables of generated code

A resolved model together with the fields for the columns of its table. `CodeTable.build` checks that the
columns come to different fields, that every rule is about a column, and that joins start from one.
-/

namespace TableMapper

/-- A column as it appears in generated code. -/
structure CodeField where
  column : String
  /-- The identifier, written so that it is no keyword. -/
  name : String
  /-- The name without regard to keywords, from which names of methods are made. -/
  plainName : String
  type : ColumnType
  nullable : Bool
  primary : Bool
  autoIncrement : Bool
  rule : Option FieldRule

/-- The type of the values of a field. -/
def CodeField.fieldType (f : CodeField) : FieldType := f.type.fieldType f.nullable

/-- A model with the fields of its table. -/
structure CodeTable where
  model : LinkedModel
  fields : List CodeField

namespace CodeTable

/-- The rule for a column, under its full name or under its name without a prefix. -/
def ruleFor (m : TableModel) (column : String) : Option FieldRule :=
  (m.rules.get? column).or (m.rules.get? (m.stripPrefix column))

/-- The field for a column of a given type. A column of the primary key is never NULL. -/
def field (m : TableModel) (c : SchemaColumn) (type : ColumnType) : CodeField :=
  { column := c.name
    name := Code.fieldName (m.stripPrefix c.name)
    plainName := Code.plainName (m.stripPrefix c.name)
    type
    nullable := c.nullable && !c.isPrimary
    primary := c.isPrimary
    autoIncrement := c.isAutoIncrement
    rule := ruleFor m c.name }

/-- The fields for columns, after fields of the given names. -/
def fieldsAfter (m : TableModel) (seen : List String) :
    List SchemaColumn → Except GenerationError (List CodeField)
  | [] => .ok []
  | c :: rest =>
    match ColumnType.read c.type with
    | .error fault => .error (.type fault)
    | .ok type =>
      let f := field m c type
      if seen.contains f.plainName then
        .error (.config ⟨m.name, "database.prefix", .sameField m.table f.plainName⟩)
      else (fieldsAfter m (f.plainName :: seen) rest).map (f :: ·)

/-- Whether a rule under a given name is about one of the fields. -/
def isKnown (m : TableModel) (fields : List CodeField) (name : String) : Bool :=
  fields.any fun f => f.column == name || m.stripPrefix f.column == name

/-- The first rule that is about no column. -/
def checkRules (m : TableModel) (fields : List CodeField) : Except GenerationError Unit :=
  match m.rules.keys.find? fun name => !isKnown m fields name with
  | some name => .error (.config ⟨m.name, "validation." ++ name, .noColumn m.table⟩)
  | none => .ok ()

/-- Whether a join starts from a column of the table, or from another table. -/
def startsWell (m : TableModel) (fields : List CodeField) (join : LinkedJoin) : Bool :=
  join.localAlias != m.table || fields.any fun f => f.column == join.localField

/-- The first join that does not start from a column. -/
def checkJoins (m : LinkedModel) (fields : List CodeField) : Except GenerationError Unit :=
  match m.joins.find? fun join => !startsWell m.toTableModel fields join with
  | some join =>
    .error (.config ⟨m.name, "joins." ++ join.label ++ ".local_field", .noColumnNamed m.table join.localField⟩)
  | none => .ok ()

def build (m : LinkedModel) (columns : List SchemaColumn) : Except GenerationError CodeTable := do
  let fields ← fieldsAfter m.toTableModel [] columns
  checkRules m.toTableModel fields
  checkJoins m fields
  .ok ⟨m, fields⟩

/-- The name of the entity type. -/
def className (t : CodeTable) : String := t.model.className

/-- The fields of the primary key. -/
def primaryFields (t : CodeTable) : List CodeField := t.fields.filter (·.primary)

/-- The field that the database numbers, if it holds whole numbers. -/
def autoIncrementField (t : CodeTable) : Option CodeField :=
  t.fields.find? fun f => f.autoIncrement && f.fieldType.scalar.isInteger

def fieldForColumn (t : CodeTable) (column : String) : Option CodeField :=
  t.fields.find? fun f => f.column == column

/-- The name that the files of the table share. -/
def moduleName (t : CodeTable) : String := Code.moduleName t.className

/-- The comment at the start of a file, which says what it is about and whose it is. -/
def header (t : CodeTable) (what : String) : Code.Lines :=
  ["//! " ++ what ++ " for table " ++ ticked t.model.table,
   "//!",
   "//! @author " ++ t.model.author,
   "//! @copyright " ++ t.model.copyright,
   "//!",
   "//! Generated by mapgen-codegen. Do not edit.",
   ""]

end CodeTable

end TableMapper
