import TableMapper.Entity.Basic
import TableMapper.Executor

/-! # Writing entities

The statements that write an entity to its table, and what the entity is afterwards.
-/

namespace TableMapper.Write

open Entity

variable {α : Type} [Entity α] {σ : Type}

/-- A query about the table of an entity. -/
def tableQuery (α : Type) [Entity α] : Query := Query.empty.setSource (table α) none

/-- Adds assignments of columns. -/
def addSets (values : List (String × Value)) (q : Query) : Query :=
  values.foldl (fun q (column, v) => q.addSet column v) q

/-- Adds assignments of columns for the case that the row exists. -/
def addUpdates (values : List (String × Value)) (q : Query) : Query :=
  values.foldl (fun q (column, v) => q.addUpdate column v) q

/-- Adds the conditions that columns have given values. -/
def addConditions : List (String × Value) → Query → Except Error Query
  | [], q => .ok q
  | (column, v) :: rest, q => do addConditions rest (← q.addWhere (.eq column v))

/-- The statement that inserts an entity. -/
def insertStatement (e : α) : Except Error Statement :=
  (addSets (insertValues e) (tableQuery α)).build .insert

/-- The columns that are written when the row exists. In a table of nothing but keys, assigning the key
again keeps the statement well formed. -/
def conflictValues (e : α) : List (String × Value) :=
  if (updateValues e).isEmpty then keyValues e else updateValues e

/-- The statement that inserts an entity, or changes the row that has its key. -/
def upsertStatement (e : α) : Except Error Statement :=
  (addUpdates (conflictValues e) (addSets (insertValues e) (tableQuery α))).build .insert

/-- The statement that changes the row with the key of an entity. -/
def updateStatement (e : α) : Except Error Statement := do
  (← addConditions (keyValues e) (addSets (updateValues e) (tableQuery α))).build .update

/-- The statement that deletes the row with the key of an entity. -/
def deleteStatement (e : α) : Except Error Statement := do
  (← addConditions (keyValues e) (tableQuery α)).build .delete

/-- The entity after its row was inserted. -/
def afterInsert (e : α) (result : ExecuteResult) : α :=
  match autoIncrement α, result.lastInsertId with
  | some _, some id => setGeneratedId e id
  | _, _ => e

/-- The entity after its row was inserted or changed. A changed row reports zero in place of a number. -/
def afterUpsert (e : α) (result : ExecuteResult) : α :=
  match autoIncrement α, result.lastInsertId with
  | some _, some id => if id = 0 then e else setGeneratedId e id
  | _, _ => e

/-- Inserts an entity, which takes over the number that the database gave it. -/
def insert (x : Executor σ) (e : α) : Access σ (ExecuteResult × α) := do
  let result ← x.execute (← Access.ofExcept (insertStatement e))
  pure (result, afterInsert e result)

/-- Inserts an entity, or changes the row that has its key. -/
def upsert (x : Executor σ) (e : α) : Access σ (ExecuteResult × α) := do
  let result ← x.execute (← Access.ofExcept (upsertStatement e))
  pure (result, afterUpsert e result)

/-- Changes the row with the key of an entity, and says how many rows that were. -/
def update (x : Executor σ) (e : α) : Access σ Nat := do
  let result ← x.execute (← Access.ofExcept (updateStatement e))
  pure result.rowsAffected

/-- Deletes the row with the key of an entity, and says how many rows that were. -/
def delete (x : Executor σ) (e : α) : Access σ Nat := do
  let result ← x.execute (← Access.ofExcept (deleteStatement e))
  pure result.rowsAffected

end TableMapper.Write
