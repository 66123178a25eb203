import TableMapper.Code.Table
import TableMapper.Entity.Basic
import TableMapper.Rule.Check

/-! # Records

The rows of a table whose columns have types: a record has a value of the right type for each field.
Fields are set through their rules. Main statement: whatever is read or set, the values of a record keep
the types of its fields, which is part of the type `Record`.
-/

namespace TableMapper

/-- A field of the records of a table. -/
structure RecordField where
  column : String
  /-- The name under which the field is set. -/
  name : String
  type : FieldType
  primary : Bool := false
  autoIncrement : Bool := false
  rule : Option FieldRule := none
  deriving DecidableEq, Repr

/-- A table whose rows are records. -/
structure RecordType where
  table : String
  fields : List RecordField
  /-- How the cache keys of the table start. -/
  cacheStart : String
  cacheEnabled : Bool := false
  deriving DecidableEq, Repr

namespace RecordType

def primaryKey (t : RecordType) : List String := (t.fields.filter (·.primary)).map (·.column)

/-- The column that the database numbers. -/
def autoIncrement (t : RecordType) : Option String := (t.fields.find? (·.autoIncrement)).map (·.column)

/-- The columns in order. -/
def columns (t : RecordType) : List String := t.fields.map (·.column)

end RecordType

/-- The records that the code for a table works with. -/
def CodeTable.recordType (t : CodeTable) : RecordType :=
  { table := t.model.table
    fields := t.fields.map fun f =>
      { column := f.column, name := f.plainName, type := f.fieldType, primary := f.primary
        autoIncrement := f.autoIncrement && f.fieldType.scalar.isInteger, rule := f.rule }
    cacheStart := t.model.cacheStart
    cacheEnabled := t.model.cacheEnabled }

/-- There is one value for each field, and it has the type of the field. -/
def Typed : List RecordField → List Value → Prop
  | [], [] => True
  | f :: fs, v :: vs => f.type.holds v = true ∧ Typed fs vs
  | _, _ => False

namespace RecordField

/-- Reads the fields of a row, each from its column. -/
def readAll : List RecordField → Row → Except Error (List Value)
  | [], _ => .ok []
  | f :: fs, r => do
    let v ← r.get f.column f.type
    let vs ← readAll fs r
    .ok (v :: vs)

theorem typed_readAll {fs : List RecordField} {r : Row} {vs : List Value}
    (h : readAll fs r = .ok vs) : Typed fs vs := by
  induction fs generalizing vs with
  | nil =>
    injection h with h
    subst h
    trivial
  | cons f fs ih =>
    simp only [readAll, bind, Except.bind] at h
    split at h
    · simp at h
    · next v hv =>
      split at h
      · simp at h
      · next ws hws =>
        injection h with h
        subst h
        refine ⟨?_, ih hws⟩
        simp only [Row.get, bind, Except.bind] at hv
        split at hv
        · simp at hv
        · exact FieldType.holds_of_convert hv

/-- The value that a field takes when it is set. The value is taken to the type of the field; a rule checks
it and gives it the form that it has in the field. -/
def accept [PatternEngine] (f : RecordField) (v : Value) : Except Error Value := do
  let v ← f.type.convert v
  match f.rule with
  | none => .ok v
  | some rule =>
    match Rule.validate rule.kind rule.options v with
    | .error rejection => .error (.validation rejection)
    | .ok checked => f.type.convert checked

theorem holds_of_accept [PatternEngine] {f : RecordField} {v w : Value} (h : f.accept v = .ok w) :
    f.type.holds w = true := by
  simp only [accept, bind, Except.bind] at h
  split at h
  · simp at h
  · next u hu =>
    split at h
    · injection h with h
      subst h
      exact FieldType.holds_of_convert hu
    · split at h
      · simp at h
      · exact FieldType.holds_of_convert h

/-- The value that a field takes when the database has numbered a new row. A number that the field does not
hold leaves it NULL where that is admitted, and otherwise as it was. -/
def withGeneratedId (f : RecordField) (id : Nat) (old : Value) : Value :=
  match f.type.scalar with
  | .integer kind =>
    match Integer.ofInt? kind id with
    | some n => .integer n
    | none => if f.type.nullable then .null else old
  | _ => old

theorem holds_withGeneratedId {f : RecordField} {id : Nat} {old : Value}
    (h : f.type.holds old = true) : f.type.holds (f.withGeneratedId id old) = true := by
  unfold withGeneratedId
  split
  · next kind hk =>
    split
    · next n hn => simp [FieldType.holds, hk, ScalarType.holds, ScalarType.kind_of_ofInt? hn]
    · split
      · next hn => simp [FieldType.holds, hn, Value.isNull]
      · exact h
  · exact h

/-- Changes the value of the first field of a kind. -/
def changeFirst (p : RecordField → Bool) (change : RecordField → Value → Except Error Value) :
    List RecordField → List Value → Except Error (List Value)
  | f :: fs, v :: vs =>
    if p f then (change f v).map (· :: vs) else (changeFirst p change fs vs).map (v :: ·)
  | _, vs => .ok vs

theorem typed_changeFirst {p : RecordField → Bool} {change : RecordField → Value → Except Error Value}
    (hc : ∀ f v w, f.type.holds v = true → change f v = .ok w → f.type.holds w = true)
    {fs : List RecordField} {vs ws : List Value} (ht : Typed fs vs)
    (h : changeFirst p change fs vs = .ok ws) : Typed fs ws := by
  induction fs generalizing vs ws with
  | nil =>
    simp only [changeFirst, Except.ok.injEq] at h
    exact h ▸ ht
  | cons f fs ih =>
    cases vs with
    | nil => exact ht.elim
    | cons v vs =>
      simp only [changeFirst] at h
      split at h
      · cases hv : change f v with
        | error e => simp [hv, Except.map] at h
        | ok w =>
          simp only [hv, Except.map, Except.ok.injEq] at h
          subst h
          exact ⟨hc f v w ht.1 hv, ht.2⟩
      · cases hv : changeFirst p change fs vs with
        | error e => simp [hv, Except.map] at h
        | ok us =>
          simp only [hv, Except.map, Except.ok.injEq] at h
          subst h
          exact ⟨ht.1, ih ht.2 hv⟩

theorem typed_defaults (fs : List RecordField) : Typed fs (fs.map fun f => f.type.default) := by
  induction fs with
  | nil => trivial
  | cons f fs ih => exact ⟨f.type.holds_default, ih⟩

end RecordField

/-- A row of a table: a value of the right type for each field. -/
structure Record (t : RecordType) where
  values : List Value
  typed : Typed t.fields values

namespace Record

variable {t : RecordType}

/-- The record that a row starts as: every field has the value that its type starts with. -/
def new (t : RecordType) : Record t := ⟨t.fields.map fun f => f.type.default, RecordField.typed_defaults _⟩

/-- Reads a record from a row. -/
def ofRow (t : RecordType) (r : Row) : Except Error (Record t) :=
  match h : RecordField.readAll t.fields r with
  | .ok vs => .ok ⟨vs, RecordField.typed_readAll h⟩
  | .error e => .error e

def cells (r : Record t) : List (String × Value) := t.columns.zip r.values

/-- Sets a field by its name. A field that there is none of is left alone. -/
def set [PatternEngine] (r : Record t) (name : String) (v : Value) : Except Error (Record t) :=
  match h : RecordField.changeFirst (fun f => f.name == name) (fun f _ => f.accept v) t.fields r.values with
  | .ok vs =>
    .ok ⟨vs, RecordField.typed_changeFirst (fun _ _ _ _ ha => RecordField.holds_of_accept ha) r.typed h⟩
  | .error e => .error e

/-- The record after the database has numbered its row. -/
def setGeneratedId (r : Record t) (id : Nat) : Record t :=
  match h : RecordField.changeFirst (fun f => f.autoIncrement)
      (fun f old => .ok (f.withGeneratedId id old)) t.fields r.values with
  | .ok vs =>
    ⟨vs, RecordField.typed_changeFirst
      (fun _ _ _ ho ha => by injection ha with ha; exact ha ▸ RecordField.holds_withGeneratedId ho) r.typed h⟩
  | .error _ => r

end Record

instance (t : RecordType) : Entity (Record t) where
  columns := t.columns
  ofRow := Record.ofRow t
  table := t.table
  primaryKey := t.primaryKey
  autoIncrement := t.autoIncrement
  values := Record.cells
  setGeneratedId := Record.setGeneratedId

/-- The key of a row from the values of its columns, each taken to the type of its column. -/
def RecordType.key (t : RecordType) (values : List Value) : Except Error (List (String × Value)) :=
  ((t.fields.filter (·.primary)).zip values).mapM fun (f, v) => do .ok (f.column, ← f.type.convert v)

end TableMapper
