import TableMapper.Entity.Record
import TableMapper.Exchange.Value
import TableMapper.Executor

/-! # Records in JSON

A record is the list of its columns, each with its value.
-/

namespace TableMapper

instance {t : RecordType} : ToDocument (Record t) := ⟨fun r => r.cells⟩

instance : ToDocument ExecuteResult where
  toDocument r := .ofMembers [("rows_affected", r.rowsAffected), ("last_insert_id", r.lastInsertId)]

/-- What an executed statement did; it changed one row and numbered none unless something else is said. -/
instance : OfDocument ExecuteResult where
  ofDocument? j := do
    let rows : Option Nat ← j.read? "rows_affected"
    pure ⟨rows.getD 1, ← j.read? "last_insert_id"⟩

end TableMapper
