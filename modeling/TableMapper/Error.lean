import TableMapper.Query.Operator
import TableMapper.Rule.Basic
import TableMapper.Text.Utf8

/-! # What can go wrong

Everything that can go wrong between a value and the database, by cause. `Error.message` is the only
place where causes are put into words.
-/

namespace TableMapper

/-- Why a value cannot be converted. -/
inductive ConversionFault where
  /-- A value of another type; text that does not read as the type counts as text. -/
  | mismatch (expected actual : String)
  /-- A number, or a text in place of one, that the type does not hold. -/
  | outOfRange (expected shown : String)
  | badUtf8 (fault : Text.Utf8.Fault)
  | badDecimal (text : String)
  | badJson
  /-- A day that the calendar does not have. -/
  | badDay (year month day : Nat)
  /-- A clock reading that names no time of day. -/
  | badClock (hour minute second micro : Nat)
  /-- A span of time that is no time of day. -/
  | notTimeOfDay (negative : Bool) (hours minute second : Nat)
  deriving DecidableEq, Repr

namespace ConversionFault

/-- What was looked for. -/
def expected : ConversionFault → String
  | .mismatch expected _ => expected
  | .outOfRange expected _ => expected
  | .badUtf8 _ => "utf8 string"
  | .badDecimal _ => "decimal"
  | .badJson => "json"
  | .badDay .. => "date"
  | .badClock .. => "time"
  | .notTimeOfDay .. => "time (00:00:00 to 23:59:59)"

/-- What was found. -/
def actual : ConversionFault → String
  | .mismatch _ actual => actual
  | .outOfRange _ shown => s!"{shown} out of range"
  | .badUtf8 fault => s!"invalid utf8: {fault.message}"
  | .badDecimal text => s!"invalid decimal string: {text}"
  | .badJson => "invalid json:"
  | .badDay year month day => s!"{year}-{month}-{day}"
  | .badClock hour minute second micro => s!"{hour}:{minute}:{second}.{micro}"
  | .notTimeOfDay negative hours minute second =>
    (if negative then "-" else "") ++ toString hours ++ ":" ++ Number.paddedText 2 minute ++ ":" ++
      Number.paddedText 2 second

end ConversionFault

/-- Why a query cannot be rendered or run. -/
inductive QueryFault where
  /-- An operator that takes NULL or a truth value, with a value of another type. -/
  | literalOperand (field : String) (op : Operator) (typeName : String)
  | emptyLookupKey
  | noSource
  | noTarget
  | unbound (placeholder : String)
  | noPrimaryField
  | noPrimaryKey (table : String)
  | noListIndex
  deriving DecidableEq, Repr

/-- A fault of a query in words. -/
def QueryFault.message : QueryFault → String
  | .literalOperand field op typeName =>
    "\x60" ++ field ++ " " ++ op.sql ++ "\x60 only accepts NULL or a boolean, got " ++ typeName
  | .emptyLookupKey => "a lookup key has no columns"
  | .noSource => "no FROM table was set"
  | .noTarget => "no target table was set"
  | .unbound placeholder => s!"placeholder :{placeholder} has no bound value"
  | .noPrimaryField => "no primary key field was selected"
  | .noPrimaryKey table => "table \x60" ++ table ++ "\x60 has no primary key"
  | .noListIndex => "no list index field was set"

/-- Everything that can go wrong. -/
inductive Error where
  /-- A list of values to look for that is empty. -/
  | emptyInValues (field : String)
  /-- A statement that writes, with nothing to write. -/
  | emptySetClause
  /-- A statement that needs a condition, without one. -/
  | emptyWhereClause
  | invalidQuery (fault : QueryFault)
  | validation (rejection : Rejection)
  | typeConversion (fault : ConversionFault)
  | columnNotFound (column : String)
  | unexpectedNull (column : String)
  /-- A failure that the database reports. -/
  | query (text : String)
  deriving DecidableEq, Repr

namespace Error

/-- An error in words. -/
def message : Error → String
  | .emptyInValues field => "Empty value list for IN clause on field \x60" ++ field ++ "\x60"
  | .emptySetClause => "Empty SET clause: no field to write"
  | .emptyWhereClause => "Empty WHERE clause: refusing to run an unconstrained query"
  | .invalidQuery fault => "Invalid query: " ++ fault.message
  | .validation rejection => rejection.message
  | .typeConversion fault =>
    "Type conversion error: expected " ++ fault.expected ++ ", got " ++ fault.actual
  | .columnNotFound column => "Column not found: " ++ column
  | .unexpectedNull column => "Unexpected null value for column: " ++ column
  | .query text => "Query error: " ++ text

end Error

end TableMapper
