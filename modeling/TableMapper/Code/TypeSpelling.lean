import TableMapper.FieldType

/-! # Types in generated code

How the type of a field is spelled in generated code: as the type of a field, of a parameter and of what a
getter returns, with the expressions that read, empty and convert it.
-/

namespace TableMapper

/-- The path of a type in generated code. -/
def ScalarType.path : ScalarType → String
  | .bool => "bool"
  | .integer kind => kind.name
  | .single => "f32"
  | .double => "f64"
  | .text => "String"
  | .bytes => "Vec<u8>"
  | .decimal => "rust_decimal::Decimal"
  | .date => "chrono::NaiveDate"
  | .dateTime => "chrono::NaiveDateTime"
  | .time => "chrono::NaiveTime"
  | .json => "serde_json::Value"
  | .any => "mapgen::Value"

/-- The type that getters lend instead of copying the value. -/
def ScalarType.borrowed : ScalarType → Option String
  | .text => some "str"
  | .bytes => some "[u8]"
  | .json => some "serde_json::Value"
  | _ => none

/-- Whether values of the type are whole numbers. -/
def ScalarType.isInteger : ScalarType → Bool
  | .integer _ => true
  | _ => false

namespace FieldType

/-- A spelling, wrapped if the field admits NULL. -/
def wrap (t : FieldType) (spelling : String) : String :=
  if t.nullable then "Option<" ++ spelling ++ ">" else spelling

/-- The type of a field in generated code. -/
def spelling (t : FieldType) : String := t.wrap t.scalar.path

/-- The type of a parameter. Text and bytes are lent. -/
def parameter (t : FieldType) : String :=
  match t.scalar with
  | .text => t.wrap "&str"
  | .bytes => t.wrap "&[u8]"
  | _ => t.spelling

/-- What the getter of a field returns: the type and the expression. -/
def getter (t : FieldType) (field : String) : String × String :=
  let access := "self." ++ field
  match t.scalar.borrowed with
  | none => (t.spelling, access)
  | some borrowed =>
    if t.nullable then
      let lend := if t.scalar = .json then ".as_ref()" else ".as_deref()"
      (t.wrap ("&" ++ borrowed), access ++ lend)
    else ("&" ++ borrowed, "&" ++ access)

/-- The expression for the value that a field starts with. -/
def emptyExpression (t : FieldType) : String :=
  if t.nullable then "None"
  else
    match t.scalar with
    | .bool => "false"
    | .single => "0.0"
    | .double => "0.0"
    | .decimal => "rust_decimal::Decimal::ZERO"
    | .text => "String::new()"
    | .bytes => "Vec::new()"
    | .date => "Default::default()"
    | .dateTime => "Default::default()"
    | .time => "Default::default()"
    | .json => "serde_json::Value::Null"
    | .integer _ => "0"
    | .any => "mapgen::Value::Null"

/-- The expression that converts a value to the type of the field. -/
def castExpression (t : FieldType) (value : String) : String :=
  "<" ++ t.spelling ++ " as mapgen::FromValue>::from_value(" ++ value ++ ")?"

end FieldType

end TableMapper
