import TableMapper.Cache
import TableMapper.Entity.Basic
import TableMapper.Executor
import TableMapper.KeyMap

/-! # Reading entities

The statements that read entities of a table, and how their rows become entities. A lookup by key may go
through a cache, where a row that is found needs no statement.
-/

namespace TableMapper

open Entity (table primaryKey)
open Decodable (ofRow columns)

namespace Select

/-- The query for every column of a table. -/
def baseQuery (α : Type) [Entity α] : Query :=
  (columns α).foldl (fun q c => q.addField { name := c, primary := (primaryKey α).contains c })
    (Query.empty.setSource (table α) none)

/-- Adds the conditions that columns of a table have given values. -/
def addEqual (table : String) : List (String × Value) → Query → Except Error Query
  | [], q => .ok q
  | (column, v) :: rest, q => do
    let q ← q.addWhere { Condition.eq column v with table := some table }
    addEqual table rest q

/-- Adds the conditions of a primary key. -/
def addPrimaryKey (α : Type) [Entity α] (key : List (String × Value)) (q : Query) : Except Error Query :=
  if (primaryKey α).isEmpty then .error (.invalidQuery (.noPrimaryKey (table α)))
  else addEqual (table α) key q

/-- Reads entities from rows, up to the first that is none. -/
def decodeAll (α : Type) [Decodable α] : List Row → Except Error (List α)
  | [] => .ok []
  | r :: rs => do
    let e ← ofRow r
    let es ← decodeAll α rs
    .ok (e :: es)

variable {σ : Type}

def fetchRows (x : Executor σ) (q : Query) : Access σ (List Row) := do
  x.fetchAll (← Access.ofExcept (q.build .select))

def fetchAll (α : Type) [Entity α] (x : Executor σ) (q : Query) : Access σ (List α) := do
  Access.ofExcept (decodeAll α (← fetchRows x q))

/-- The first entity of a query. -/
def fetchOne (α : Type) [Entity α] (x : Executor σ) (q : Query) : Access σ (Option α) := do
  match ← x.fetchFirst (← Access.ofExcept (q.build .select)) with
  | none => pure none
  | some r => do pure (some (← Access.ofExcept (ofRow r)))

/-- Reads entities from rows under the texts of a column. -/
def decodeIndexed (α : Type) [Decodable α] (index : String) : List Row → KeyMap α → Except Error (KeyMap α)
  | [], m => .ok m
  | r :: rs, m => do
    let key ← r.value index
    let e ← ofRow r
    decodeIndexed α index rs (m.insert key.keyText e)

/-- The entities of a query under the texts of the field that the query is indexed by. -/
def fetchIndexed (α : Type) [Entity α] (x : Executor σ) (q : Query) : Access σ (KeyMap α) := do
  match q.listIndex with
  | none => throw (.invalidQuery .noListIndex)
  | some index => do Access.ofExcept (decodeIndexed α index (← fetchRows x q) .empty)

/-- How many rows a query has. -/
def count (x : Executor σ) (q : Query) : Access σ Nat := do
  match ← x.fetchFirst (← Access.ofExcept (q.build .count)) with
  | none => pure 0
  | some row => Access.ofExcept (Executor.countOf row "count")

/-- The entities of a query, and how many there would be without its limit. -/
def fetchWithFoundRows (α : Type) [Entity α] (x : Executor σ) (q : Query) : Access σ (List α × Nat) := do
  let (rows, total) ← x.fetchWithFoundRows (← Access.ofExcept ((q.setCalcFoundRows true).build .select))
  pure (← Access.ofExcept (decodeAll α rows), total)

end Select

/-- What a mapper works with: the state of a database, and rows kept from earlier lookups if there is a
cache. -/
structure Client (σ : Type) where
  database : σ
  cache : Option Cache

/-- Work of a mapper with its client. -/
abbrev Mapping (σ : Type) := ExceptT Error (StateM (Client σ))

namespace Mapping

variable {σ : Type}

/-- Work that uses only the database. -/
def onDatabase (work : Access σ α) : Mapping σ α := do
  let client ← get
  let (result, database) := work.run.run client.database
  set { client with database }
  match result with
  | .ok a => pure a
  | .error e => throw e

/-- What was computed without the client. -/
def ofExcept : Except Error α → Mapping σ α
  | .ok a => pure a
  | .error e => throw e

/-- The cached row under a key. -/
def cached? (key : String) : Mapping σ (Option Row) := do pure ((← get).cache.bind (·.get? key))

/-- Keeps a row under a key, if there is a cache. -/
def keep (key : String) (r : Row) : Mapping σ Unit :=
  modify fun client => { client with cache := client.cache.map (·.insert key r) }

/-- Forgets the row under a key. -/
def forget (key : String) : Mapping σ Unit :=
  modify fun client => { client with cache := client.cache.map (·.erase key) }

/-- The first entity of a query, which is looked for in the cache before the database is asked. A row that
the database returns is kept once it has been read as an entity. -/
def fetchOneCached (α : Type) [Entity α] (x : Executor σ) (key : String) (q : Query) :
    Mapping σ (Option α) := do
  if (← get).cache.isNone then onDatabase (Select.fetchOne α x q)
  else
    match ← cached? key with
    | some row => do pure (some (← ofExcept (ofRow row)))
    | none =>
      let statement ← ofExcept (q.build .select)
      match ← onDatabase (x.fetchFirst statement) with
      | none => pure none
      | some row =>
        let e ← ofExcept (ofRow row)
        keep key row
        pure (some e)

end Mapping

end TableMapper
