import TableMapper.FieldType

/-! # Kinds of columns

The database has one kind of column for each of its base types; some kinds go by several names. The kind
and the sign decide the type of the values.
-/

namespace TableMapper

/-- The kind of a column, one for each base type of the database. -/
inductive ColumnKind where
  | boolean | tinyInt | smallInt | mediumInt | int | bigInt
  | float | double | decimal
  | char | varChar | tinyText | text | mediumText | longText
  | binary | varBinary | tinyBlob | blob | mediumBlob | longBlob | bit
  | date | dateTime | timestamp | time | year
  | enumeration | set | json
  deriving DecidableEq, Repr

namespace ColumnKind

def name : ColumnKind → String
  | boolean => "boolean"
  | tinyInt => "tinyint"
  | smallInt => "smallint"
  | mediumInt => "mediumint"
  | int => "int"
  | bigInt => "bigint"
  | float => "float"
  | double => "double"
  | decimal => "decimal"
  | char => "char"
  | varChar => "varchar"
  | tinyText => "tinytext"
  | text => "text"
  | mediumText => "mediumtext"
  | longText => "longtext"
  | binary => "binary"
  | varBinary => "varbinary"
  | tinyBlob => "tinyblob"
  | blob => "blob"
  | mediumBlob => "mediumblob"
  | longBlob => "longblob"
  | bit => "bit"
  | date => "date"
  | dateTime => "datetime"
  | timestamp => "timestamp"
  | time => "time"
  | year => "year"
  | enumeration => "enum"
  | set => "set"
  | json => "json"

/-- The names under which a table may ask for each kind, in lower case. -/
def baseNames : List (String × ColumnKind) :=
  [("bool", boolean), ("boolean", boolean), ("tinyint", tinyInt), ("smallint", smallInt),
   ("mediumint", mediumInt), ("int", int), ("integer", int), ("bigint", bigInt),
   ("float", float), ("double", double), ("real", double),
   ("decimal", decimal), ("numeric", decimal), ("dec", decimal), ("fixed", decimal),
   ("char", char), ("varchar", varChar), ("tinytext", tinyText), ("text", text),
   ("mediumtext", mediumText), ("longtext", longText),
   ("binary", binary), ("varbinary", varBinary), ("tinyblob", tinyBlob), ("blob", blob),
   ("mediumblob", mediumBlob), ("longblob", longBlob), ("bit", bit),
   ("date", date), ("datetime", dateTime), ("timestamp", timestamp), ("time", time), ("year", year),
   ("enum", enumeration), ("set", set), ("json", json)]

/-- The kind that a name in lower case asks for. -/
def ofBaseName? (s : String) : Option ColumnKind := baseNames.lookup s

/-- Whether columns of the kind hold whole numbers. -/
def isInteger : ColumnKind → Bool
  | tinyInt | smallInt | mediumInt | int | bigInt | year => true
  | _ => false

/-- Whether columns of the kind hold text. -/
def isTextual : ColumnKind → Bool
  | char | varChar | tinyText | text | mediumText | longText | enumeration | set => true
  | _ => false

/-- The type of the values of a column, by its kind and sign. -/
def scalar (unsigned : Bool) : ColumnKind → ScalarType
  | boolean => .bool
  | tinyInt => .integer (if unsigned then .uint8 else .int8)
  | smallInt | year => .integer (if unsigned then .uint16 else .int16)
  | mediumInt | int => .integer (if unsigned then .uint32 else .int32)
  | bigInt => .integer (if unsigned then .uint64 else .int64)
  | float => .single
  | double => .double
  | decimal => .decimal
  | char | varChar | tinyText | text | mediumText | longText | enumeration | set => .text
  | binary | varBinary | tinyBlob | blob | mediumBlob | longBlob | bit => .bytes
  | date => .date
  | dateTime | timestamp => .dateTime
  | time => .time
  | json => .json

end ColumnKind

end TableMapper
