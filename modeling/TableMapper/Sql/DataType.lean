import TableMapper.Number.Integer
import TableMapper.Sql.Reader

/-! # Data types

How the type of a column is read from a script, and the one way in which it is written afterwards: known
type names in capitals, arguments without superfluous blanks. Names that are not known stay as they are.
-/

namespace TableMapper.Sql

/-- What may follow the name of a type. -/
inductive TypeForm where
  /-- Nothing. -/
  | plain
  /-- A sign attribute. -/
  | unsignedOnly
  | length
  /-- A length and a sign attribute. -/
  | integer
  /-- A precision, or a precision and a scale. -/
  | exact
  /-- What `exact` allows, and a sign attribute. -/
  | exactUnsigned
  /-- A length with a unit, or `MAX`. -/
  | characters
  /-- A length, or `MAX`. -/
  | bytes
  /-- A precision and a time zone attribute. -/
  | clock
  deriving DecidableEq, Repr

/-- The types with known names of one word. -/
def typeForms : List (String × TypeForm) :=
  [("BOOLEAN", .plain), ("BOOL", .plain), ("FLOAT", .exactUnsigned), ("REAL", .unsignedOnly),
   ("FLOAT4", .plain), ("FLOAT8", .plain), ("FLOAT64", .plain), ("TINYINT", .integer), ("INT2", .integer),
   ("SMALLINT", .integer), ("MEDIUMINT", .integer), ("INT", .integer), ("INT4", .integer),
   ("INT8", .integer), ("INT64", .plain), ("INTEGER", .integer), ("BIGINT", .integer), ("HUGEINT", .plain),
   ("VARCHAR", .characters), ("NVARCHAR", .characters), ("CLOB", .length), ("BINARY", .length),
   ("VARBINARY", .bytes), ("BLOB", .length), ("TINYBLOB", .plain), ("MEDIUMBLOB", .plain),
   ("LONGBLOB", .plain), ("BYTES", .length), ("VARBIT", .length), ("UUID", .plain), ("DATE", .plain),
   ("DATETIME", .length), ("TIMESTAMP", .clock), ("TIME", .clock), ("INTERVAL", .plain), ("JSON", .plain),
   ("JSONB", .plain), ("REGCLASS", .plain), ("STRING", .length), ("TEXT", .plain), ("TINYTEXT", .plain),
   ("MEDIUMTEXT", .plain), ("LONGTEXT", .plain), ("BYTEA", .plain), ("NUMERIC", .exact),
   ("DECIMAL", .exactUnsigned), ("DEC", .exactUnsigned), ("BIGNUMERIC", .exact), ("BIGDECIMAL", .exact),
   ("TRIGGER", .plain), ("UTINYINT", .plain), ("USMALLINT", .plain), ("UBIGINT", .plain),
   ("UHUGEINT", .plain), ("TIMESTAMPTZ", .length), ("TIMETZ", .length), ("TIMESTAMP_NTZ", .length),
   ("TABLE", .plain), ("INT16", .plain), ("INT128", .plain), ("INT256", .plain), ("UINT8", .plain),
   ("UINT16", .plain), ("UINT32", .plain), ("UINT64", .plain), ("UINT128", .plain), ("UINT256", .plain),
   ("FLOAT32", .plain), ("DATE32", .plain)]

/-- The known names that are not written in capitals throughout. -/
def mixedSpellings : List (String × String) :=
  [("INT16", "Int16"), ("INT128", "Int128"), ("INT256", "Int256"), ("UINT8", "UInt8"),
   ("UINT16", "UInt16"), ("UINT32", "UInt32"), ("UINT64", "UInt64"), ("UINT128", "UInt128"),
   ("UINT256", "UInt256"), ("FLOAT32", "Float32"), ("DATE32", "Date32")]

/-- A type as it is written. -/
structure DataType where
  text : String
  /-- Whether the type has a known name. -/
  known : Bool
  deriving DecidableEq, Repr

namespace DataType

open Reader

/-- Takes a number without sign that fits into 64 bits. -/
def natural : Reader Nat := do
  match ← next with
  | .number text =>
    match Integer.read? .uint64 text.toList with
    | some n => pure n.val.toNat
    | none => refuse
  | _ => refuse

/-- Takes a length if there is one. -/
def length? : Reader String := do
  if ← nextIsSign "(" then
    let n ← parenthesized natural
    pure ("(" ++ toString n ++ ")")
  else pure ""

/-- Takes `UNSIGNED` if it is there. -/
def unsigned? : Reader String := do
  if ← keyword "UNSIGNED" then pure " UNSIGNED" else pure ""

/-- Takes a sign attribute if there is one; `SIGNED` says nothing. -/
def signed? : Reader String := do
  if ← keyword "UNSIGNED" then pure " UNSIGNED"
  else
    let _ ← keyword "SIGNED"
    pure ""

/-- Takes a number that may have a sign and fits into 64 bits. -/
def scale : Reader Int := do
  let negative ← sign "-"
  unless negative do
    let _ ← sign "+"
  match ← next with
  | .number text =>
    match Integer.read? .int64 text.toList with
    | some n => pure (if negative then -n.val else n.val)
    | none => refuse
  | _ => refuse

/-- Takes a precision, or a precision and a scale, if there is one. -/
def precision? : Reader String := do
  if ← sign "(" then
    let precision ← natural
    let scale ← if ← sign "," then do pure ("," ++ toString (← scale)) else pure ""
    need (sign ")")
    pure ("(" ++ toString precision ++ scale ++ ")")
  else pure ""

/-- Takes a length with a unit, or `MAX`, if there is one. -/
def characters? : Reader String := do
  if ← sign "(" then
    if ← keyword "MAX" then
      need (sign ")")
      pure "(MAX)"
    else
      let n ← natural
      let unit ← oneOf ["CHARACTERS", "OCTETS"]
      need (sign ")")
      pure ("(" ++ toString n ++ (unit.map (" " ++ ·)).getD "" ++ ")")
  else pure ""

/-- Takes a length, or `MAX`, if there is one. -/
def bytes? : Reader String := do
  if ← sign "(" then
    let n ← if ← keyword "MAX" then pure "MAX" else do pure (toString (← natural))
    need (sign ")")
    pure ("(" ++ n ++ ")")
  else pure ""

/-- Takes a time zone attribute if there is one. -/
def zone? : Reader String := do
  if ← keyword "WITH" then
    need (keywords ["TIME", "ZONE"])
    pure " WITH TIME ZONE"
  else if ← keyword "WITHOUT" then
    need (keywords ["TIME", "ZONE"])
    pure " WITHOUT TIME ZONE"
  else pure ""

/-- Takes what may follow a type name. -/
def arguments : TypeForm → Reader String
  | .plain => pure ""
  | .unsignedOnly => unsigned?
  | .length => length?
  | .integer => do pure ((← length?) ++ (← signed?))
  | .exact => precision?
  | .exactUnsigned => do pure ((← precision?) ++ (← unsigned?))
  | .characters => characters?
  | .bytes => bytes?
  | .clock => do pure ((← length?) ++ (← zone?))

/-- Takes a text, or a word, as a member of an enumeration; a member may have a number. -/
def enumMember : Reader String := do
  let content ← match ← next with
    | .word text | .name text | .text text | .quoted text => pure text
    | _ => refuse
  let number ← if ← sign "=" then do
      match ← next with
      | .number text => pure (" = " ++ text)
      | _ => refuse
    else pure ""
  pure (between '\'' content ++ number)

/-- Takes a text as a member of a set. -/
def setMember : Reader String := do
  match ← next with
  | .text content => pure (between '\'' content)
  | _ => refuse

/-- Takes the members of an enumeration or of a set. -/
def members (member : Reader String) : Reader String := do
  pure ("(" ++ ", ".intercalate (← parenthesized (commas member)) ++ ")")

/-- Takes what follows a name for character types, which may say `VARYING` or `LARGE OBJECT`. -/
def characterForm (name : String) : Reader String := do
  if ← keyword "VARYING" then pure (name ++ " VARYING" ++ (← characters?))
  else if ← keywords ["LARGE", "OBJECT"] then pure (name ++ " LARGE OBJECT" ++ (← length?))
  else pure (name ++ (← characters?))

/-- Takes one argument of a type whose name is not known. -/
def modifier : Reader (Option (Option String)) := do
  match ← next with
  | .word text => pure (some (some text))
  | .name text => pure (some (some (Token.name text).spelling))
  | .number text => pure (some (some text))
  | .text content => pure (some (some content))
  | .sign "," => pure (some none)
  | .sign ")" => pure none
  | _ => refuse

/-- Takes a type whose name is not known, as it is written. -/
def custom : Reader DataType := do
  let name ← qualifiedName
  if ← sign "(" then
    let modifiers := (← many modifier).filterMap id
    pure ⟨pathText name ++ if modifiers.isEmpty then "" else "(" ++ ", ".intercalate modifiers ++ ")", false⟩
  else pure ⟨pathText name, false⟩

/-- How a type with a known name, given in capitals, is read behind that name. -/
def behindName? (name : String) : Option (Reader String) :=
  match name with
  | "DOUBLE" => some do
    if ← keyword "PRECISION" then pure ("DOUBLE PRECISION" ++ (← unsigned?))
    else pure ("DOUBLE" ++ (← arguments .exactUnsigned))
  | "CHARACTER" | "CHAR" => some (characterForm name)
  | "BIT" => some do
    let varying ← keyword "VARYING"
    pure ("BIT" ++ (if varying then " VARYING" else "") ++ (← length?))
  | "ENUM" | "ENUM8" | "ENUM16" => some do pure (name ++ (← members enumMember))
  | "SET" => some do pure ("SET" ++ (← members setMember))
  | "SIGNED" | "UNSIGNED" => some do
    pure (name ++ if ← keyword "INTEGER" then " INTEGER" else "")
  | "ARRAY" => some refuse
  | _ => (typeForms.lookup name).map fun form => do
    pure ((mixedSpellings.lookup name).getD name ++ (← arguments form))

/-- Takes a data type. -/
def read : Reader DataType := do
  match ← peek with
  | some (.word w) =>
    match behindName? w.toUpper with
    | some behind =>
      let _ ← next
      pure ⟨← behind, true⟩
    | none => custom
  | some (.name _) => custom
  | _ => refuse

end DataType

end TableMapper.Sql
