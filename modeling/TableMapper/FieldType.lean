import TableMapper.Calendar.Reader
import TableMapper.Error
import TableMapper.Json.Parser
import TableMapper.Value

/-! # Types of fields

A field has a scalar type and may admit NULL. `FieldType.convert` takes a value of any kind to the type,
as far as that loses nothing: the database returns all integers as 64 bits, and over one of its protocols
everything as text. Main statement: what `convert` returns is a value of the type.
-/

namespace TableMapper

open Number (Binary Decimal)

/-- The type of the values of a field. -/
inductive ScalarType where
  | bool
  | integer (kind : IntKind)
  | single
  | double
  | text
  | bytes
  | date
  | dateTime
  | time
  | decimal
  | json
  /-- Any value, taken as it is. -/
  | any
  deriving DecidableEq, Repr

/-- The type of a field: a scalar type, with or without NULL. -/
structure FieldType where
  scalar : ScalarType
  nullable : Bool
  deriving DecidableEq, Repr

namespace ScalarType

/-- The name of a type in messages. -/
def name : ScalarType → String
  | .bool => "bool"
  | .integer kind => kind.name
  | .single => "f32"
  | .double => "f64"
  | .text => "string"
  | .bytes => "bytes"
  | .date => "date"
  | .dateTime => "datetime"
  | .time => "time"
  | .decimal => "decimal"
  | .json => "json"
  | .any => "value"

def holds : ScalarType → Value → Bool
  | .bool, .bool _ => true
  | .integer kind, .integer n => n.kind == kind
  | .single, .single _ => true
  | .double, .double _ => true
  | .text, .text _ => true
  | .bytes, .bytes _ => true
  | .date, .date _ => true
  | .dateTime, .dateTime _ => true
  | .time, .time _ => true
  | .decimal, .decimal _ => true
  | .json, .json _ => true
  | .any, _ => true
  | _, _ => false

/-- The value that a field starts with. -/
def default : ScalarType → Value
  | .bool => .bool false
  | .integer kind => .integer (.zero kind)
  | .single => .single (.nearest false 0 1)
  | .double => .double (.nearest false 0 1)
  | .text => .text ""
  | .bytes => .bytes ByteArray.empty
  | .date => .date .epoch
  | .dateTime => .dateTime ⟨.epoch, .midnight⟩
  | .time => .time .midnight
  | .decimal => .decimal .zero
  | .json => .json .null
  | .any => .null

/-- A value that is not of the type, and cannot become one. -/
def mismatch (t : ScalarType) (v : Value) : Except Error Value :=
  .error (.typeConversion (.mismatch t.name v.typeName))

/-- What was read of a text, or the complaint that it is only text. -/
def ofText (t : ScalarType) (read : Option α) (wrap : α → Value) : Except Error Value :=
  match read with
  | some a => .ok (wrap a)
  | none => .error (.typeConversion (.mismatch t.name "string"))

/-- A number that the type does not hold. -/
def outOfRange (t : ScalarType) (shown : String) : Except Error Value :=
  .error (.typeConversion (.outOfRange t.name shown))

/-- A value as an integer of a kind: integers of other kinds in range, truth values, and text. -/
def convertInteger (kind : IntKind) : Value → Except Error Value
  | .bool b => .ok (.integer (if b then .one kind else .zero kind))
  | .text s =>
    match Integer.read? kind (Text.trim s).toList with
    | some n => .ok (.integer n)
    | none => outOfRange (.integer kind) (Text.Quoted.encode s)
  | .integer n =>
    match Integer.ofInt? kind n.val with
    | some m => .ok (.integer m)
    | none => outOfRange (.integer kind) (toString n.val)
  | v => mismatch (.integer kind) v

/-- A value as a truth value: integers are true unless zero. -/
def convertBool : Value → Except Error Value
  | .bool b => .ok (.bool b)
  | .text "0" => .ok (.bool false)
  | .text "1" => .ok (.bool true)
  | .integer n => .ok (.bool (n.val != 0))
  | v => mismatch .bool v

def convertText : Value → Except Error Value
  | .text s => .ok (.text s)
  | .bytes b =>
    match Text.Utf8.decode b with
    | .ok s => .ok (.text s)
    | .error fault => .error (.typeConversion (.badUtf8 fault))
  | v => mismatch .text v

/-- A value as an exact decimal. Of the integers only those of 64 bits are taken. -/
def convertDecimal : Value → Except Error Value
  | .decimal d => .ok (.decimal d)
  | .integer n =>
    if n.kind.width = 64 then
      match Decimal.ofInt? n.val with
      | some d => .ok (.decimal d)
      | none => mismatch .decimal (.integer n)
    else mismatch .decimal (.integer n)
  | .text s =>
    match Decimal.read? s.toList with
    | some d => .ok (.decimal d)
    | none => .error (.typeConversion (.badDecimal s))
  | v => mismatch .decimal v

/-- A value as a JSON document. -/
def convertJson : Value → Except Error Value
  | .json j => .ok (.json j)
  | .text s =>
    match Json.parse? s with
    | some j => .ok (.json j)
    | none => .error (.typeConversion .badJson)
  | v => mismatch .json v

/-- A value as a number of 32 bits, rounded if it has more. -/
def convertSingle : Value → Except Error Value
  | .single x => .ok (.single x)
  | .double x => .ok (.single x.convert)
  | .text s => ofText .single (Binary.read? (Text.trim s).toList) .single
  | v => mismatch .single v

/-- A value as a number of 64 bits. -/
def convertDouble : Value → Except Error Value
  | .single x => .ok (.double x.convert)
  | .double x => .ok (.double x)
  | .text s => ofText .double (Binary.read? (Text.trim s).toList) .double
  | v => mismatch .double v

def convertBytes : Value → Except Error Value
  | .bytes b => .ok (.bytes b)
  | .text s => .ok (.bytes s.toUTF8)
  | v => mismatch .bytes v

/-- A value as a day. -/
def convertDate : Value → Except Error Value
  | .date d => .ok (.date d)
  | .dateTime t => .ok (.date t.date)
  | .text s => ofText .date (Date.read? s) .date
  | v => mismatch .date v

/-- A value as a day with a time; a day alone starts at midnight. -/
def convertDateTime : Value → Except Error Value
  | .dateTime t => .ok (.dateTime t)
  | .date d => .ok (.dateTime ⟨d, .midnight⟩)
  | .text s => ofText .dateTime (DateTime.read? s) .dateTime
  | v => mismatch .dateTime v

/-- A value as a time of day. -/
def convertTime : Value → Except Error Value
  | .time t => .ok (.time t)
  | .dateTime t => .ok (.time t.time)
  | .text s => ofText .time (Time.read? s) .time
  | v => mismatch .time v

/-- Takes a value to a type. -/
def convert : ScalarType → Value → Except Error Value
  | .bool => convertBool
  | .integer kind => convertInteger kind
  | .single => convertSingle
  | .double => convertDouble
  | .text => convertText
  | .bytes => convertBytes
  | .date => convertDate
  | .dateTime => convertDateTime
  | .time => convertTime
  | .decimal => convertDecimal
  | .json => convertJson
  | .any => .ok

@[simp] theorem mismatch_ne_ok {t : ScalarType} {v w : Value} : t.mismatch v ≠ .ok w := by
  simp [mismatch]

@[simp] theorem outOfRange_ne_ok {t : ScalarType} {s : String} {w : Value} :
    t.outOfRange s ≠ .ok w := by
  simp [outOfRange]

theorem ofText_eq_ok {t : ScalarType} {read : Option α} {wrap : α → Value} {w : Value} :
    t.ofText read wrap = .ok w ↔ ∃ a, read = some a ∧ w = wrap a := by
  cases read <;> simp [ofText, eq_comm]

theorem kind_of_ofInt? {kind : IntKind} {n : Int} {i : Integer} (h : Integer.ofInt? kind n = some i) :
    i.kind = kind := by
  unfold Integer.ofInt? at h
  split at h <;> simp at h
  rw [← h]

theorem kind_of_read? {kind : IntKind} {cs : List Char} {i : Integer}
    (h : Integer.read? kind cs = some i) : i.kind = kind := by
  unfold Integer.read? at h
  split at h
  · split at h
    · obtain ⟨n, -, hn⟩ := Option.bind_eq_some_iff.1 h
      exact kind_of_ofInt? hn
    · simp at h
  · obtain ⟨n, -, hn⟩ := Option.bind_eq_some_iff.1 h
    exact kind_of_ofInt? hn

theorem holds_of_convertInteger {kind : IntKind} {v w : Value}
    (h : convertInteger kind v = .ok w) : holds (.integer kind) w := by
  unfold convertInteger at h
  split at h
  · injection h with h
    subst h
    split <;> simp [holds, Integer.one, Integer.zero]
  · split at h
    · next hr =>
      injection h with h
      subst h
      simp [holds, kind_of_read? hr]
    · simp at h
  · split at h
    · next hr =>
      injection h with h
      subst h
      simp [holds, kind_of_ofInt? hr]
    · simp at h
  · simp at h

theorem holds_of_convertBool {v w : Value} (h : convertBool v = .ok w) : holds .bool w := by
  unfold convertBool at h
  split at h <;> simp at h <;> subst h <;> rfl

theorem holds_of_convertText {v w : Value} (h : convertText v = .ok w) : holds .text w := by
  unfold convertText at h
  split at h
  · injection h with h
    subst h
    rfl
  · split at h <;> simp at h
    subst h
    rfl
  · simp at h

theorem holds_of_convertDecimal {v w : Value} (h : convertDecimal v = .ok w) : holds .decimal w := by
  unfold convertDecimal at h
  split at h
  · injection h with h
    subst h
    rfl
  · split at h
    · split at h <;> simp at h
      subst h
      rfl
    · simp at h
  · split at h <;> simp at h
    subst h
    rfl
  · simp at h

theorem holds_of_convertJson {v w : Value} (h : convertJson v = .ok w) : holds .json w := by
  unfold convertJson at h
  split at h
  · injection h with h
    subst h
    rfl
  · split at h <;> simp at h
    subst h
    rfl
  · simp at h

theorem holds_of_convertSingle {v w : Value} (h : convertSingle v = .ok w) : holds .single w := by
  unfold convertSingle at h
  split at h
  · injection h with h; subst h; rfl
  · injection h with h; subst h; rfl
  · obtain ⟨_, _, rfl⟩ := ofText_eq_ok.1 h; rfl
  · simp at h

theorem holds_of_convertDouble {v w : Value} (h : convertDouble v = .ok w) : holds .double w := by
  unfold convertDouble at h
  split at h
  · injection h with h; subst h; rfl
  · injection h with h; subst h; rfl
  · obtain ⟨_, _, rfl⟩ := ofText_eq_ok.1 h; rfl
  · simp at h

theorem holds_of_convertBytes {v w : Value} (h : convertBytes v = .ok w) : holds .bytes w := by
  unfold convertBytes at h
  split at h
  · injection h with h; subst h; rfl
  · injection h with h; subst h; rfl
  · simp at h

theorem holds_of_convertDate {v w : Value} (h : convertDate v = .ok w) : holds .date w := by
  unfold convertDate at h
  split at h
  · injection h with h; subst h; rfl
  · injection h with h; subst h; rfl
  · obtain ⟨_, _, rfl⟩ := ofText_eq_ok.1 h; rfl
  · simp at h

theorem holds_of_convertDateTime {v w : Value} (h : convertDateTime v = .ok w) :
    holds .dateTime w := by
  unfold convertDateTime at h
  split at h
  · injection h with h; subst h; rfl
  · injection h with h; subst h; rfl
  · obtain ⟨_, _, rfl⟩ := ofText_eq_ok.1 h; rfl
  · simp at h

theorem holds_of_convertTime {v w : Value} (h : convertTime v = .ok w) : holds .time w := by
  unfold convertTime at h
  split at h
  · injection h with h; subst h; rfl
  · injection h with h; subst h; rfl
  · obtain ⟨_, _, rfl⟩ := ofText_eq_ok.1 h; rfl
  · simp at h

/-- What a conversion returns is a value of the type. -/
theorem holds_of_convert {t : ScalarType} {v w : Value} (h : t.convert v = .ok w) : t.holds w := by
  cases t with
  | bool => exact holds_of_convertBool h
  | integer kind => exact holds_of_convertInteger h
  | single => exact holds_of_convertSingle h
  | double => exact holds_of_convertDouble h
  | text => exact holds_of_convertText h
  | bytes => exact holds_of_convertBytes h
  | date => exact holds_of_convertDate h
  | dateTime => exact holds_of_convertDateTime h
  | time => exact holds_of_convertTime h
  | decimal => exact holds_of_convertDecimal h
  | json => exact holds_of_convertJson h
  | any => cases w <;> rfl

/-- A field starts with a value of its type. -/
theorem holds_default (t : ScalarType) : t.holds t.default := by
  cases t <;> simp [holds, default, Integer.zero]

end ScalarType

namespace FieldType

def holds (t : FieldType) (v : Value) : Bool := (t.nullable && v.isNull) || t.scalar.holds v

/-- The value that a field starts with: NULL where it is admitted. -/
def default (t : FieldType) : Value := if t.nullable then .null else t.scalar.default

/-- Takes a value to a field type. NULL stays NULL where it is admitted. -/
def convert (t : FieldType) (v : Value) : Except Error Value :=
  if t.nullable && v.isNull then .ok .null else t.scalar.convert v

/-- What a conversion returns is a value of the field type. -/
theorem holds_of_convert {t : FieldType} {v w : Value} (h : t.convert v = .ok w) : t.holds w := by
  unfold convert at h
  split at h
  · next hn =>
    injection h with h
    subst h
    simp only [Bool.and_eq_true] at hn
    simp [holds, hn.1, Value.isNull]
  · simp [holds, ScalarType.holds_of_convert h]

/-- A field starts with a value of its type. -/
theorem holds_default (t : FieldType) : t.holds t.default := by
  unfold default holds
  cases t.nullable <;> simp [Value.isNull, ScalarType.holds_default]

end FieldType

end TableMapper
