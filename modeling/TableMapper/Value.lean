import TableMapper.Calendar.Basic
import TableMapper.Json.Printer
import TableMapper.Number.Decimal
import TableMapper.Number.Integer
import TableMapper.Text.Quoted

/-! # Database values

A value that a column can hold, whatever its type. Statements never carry values in their text; they
travel beside it, as values of this type.
-/

namespace TableMapper

open Number (Single Double Decimal)

/-- Equality of bytes is decided by comparing their arrays. -/
instance decidableEqBytes : DecidableEq ByteArray := ByteArray.instDecidableEq

/-- A value of any column type. -/
inductive Value where
  | null
  | bool (b : Bool)
  | integer (n : Integer)
  | single (x : Single)
  | double (x : Double)
  | text (s : String)
  | bytes (b : ByteArray)
  | date (d : Date)
  | dateTime (t : DateTime)
  | time (t : Time)
  | decimal (d : Decimal)
  | json (j : Json)
  deriving DecidableEq

namespace Value

def isNull : Value → Bool
  | .null => true
  | _ => false

/-- The name of a value's type, for messages. -/
def typeName : Value → String
  | .null => "null"
  | .bool _ => "bool"
  | .integer n => n.kind.name
  | .single _ => "f32"
  | .double _ => "f64"
  | .text _ => "string"
  | .bytes _ => "bytes"
  | .date _ => "date"
  | .dateTime _ => "datetime"
  | .time _ => "time"
  | .decimal _ => "decimal"
  | .json _ => "json"

/-- The number that an integer holds. -/
def int? : Value → Option Int
  | .integer n => some n.val
  | _ => none

/-- The text that a value carries: texts, and bytes that are well-formed text. -/
def text? : Value → Option String
  | .text s => some s
  | .bytes b => String.fromUTF8? b
  | _ => none

/-- Bytes carry a text exactly when they are the bytes of that text. -/
theorem text?_bytes_eq_some_iff {b : ByteArray} {s : String} : (bytes b).text? = some s ↔ b = s.toUTF8 := by
  constructor
  · intro read
    change String.fromUTF8? b = some s at read
    unfold String.fromUTF8? at read
    split at read <;> cases read
    rfl
  · rintro rfl
    exact dif_pos s.isValidUTF8

/-- A value as messages show it. -/
def display : Value → String
  | .null => "NULL"
  | .bool b => if b then "true" else "false"
  | .integer n => n.text
  | .single x => x.text
  | .double x => x.text
  | .text s => Text.Quoted.encode s
  | .bytes b => s!"<{b.size} bytes>"
  | .date d => d.text
  | .dateTime t => t.text
  | .time t => t.text
  | .decimal d => d.text
  | .json j => j.compact

/-- A value as it enters the keys of caches and of indexed results: NULL is empty, text stands for
itself. -/
def keyText : Value → String
  | .null => ""
  | .text s => s
  | v => v.display

end Value

end TableMapper
