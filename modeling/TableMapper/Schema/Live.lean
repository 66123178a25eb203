import TableMapper.Code.Error
import TableMapper.Executor
import TableMapper.Schema.Column

/-! # Tables of a running database

A database describes the columns of its tables itself.
-/

namespace TableMapper.Live

/-- The statement that describes a table. -/
def statement (table : String) : Statement := .ofText ("SHOW COLUMNS FROM " ++ Identifier.escape table)

def text (r : Row) (column : String) : Except Error String := do
  match ← r.get column ⟨.text, false⟩ with
  | .text s => .ok s
  | _ => .ok ""

/-- A column of a row as text, which may be NULL. -/
def text? (r : Row) (column : String) : Except Error (Option String) := do
  match ← r.get column ⟨.text, true⟩ with
  | .text s => .ok (some s)
  | _ => .ok none

/-- The column that a row describes. -/
def column (r : Row) : Except Error SchemaColumn := do
  let name ← text r "Field"
  let type ← text r "Type"
  let null ← text r "Null"
  let key ← text? r "Key"
  let defaultText ← text? r "Default"
  let extra ← text? r "Extra"
  .ok { name, type, nullable := null.toUpper == "YES", key := .ofName (key.getD ""), defaultText
        extra := extra.getD "" }

/-- The columns that rows describe, up to the first row that describes none. -/
def columns : List Row → Except Error (List SchemaColumn)
  | [] => .ok []
  | r :: rs => do
    let c ← column r
    let cs ← columns rs
    .ok (c :: cs)

/-- The columns of a table. A table without columns is one that there is not. -/
def describe (x : Executor σ) (table : String) (s : σ) : Except GenerationError (List SchemaColumn) × σ :=
  match (x.fetchAll (statement table)).run.run s with
  | (.error e, s) => (.error (.database e), s)
  | (.ok rows, s) =>
    match columns rows with
    | .error e => (.error (.database e), s)
    | .ok [] => (.error (.missingTable table), s)
    | .ok cs => (.ok cs, s)

end TableMapper.Live
