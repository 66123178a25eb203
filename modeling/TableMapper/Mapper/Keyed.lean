import TableMapper.Entity.Record
import TableMapper.Mapper.Select
import TableMapper.Mapper.Write

/-! # Mappers of records

Lookups of records by their key go through the cache if their table is cached, and every write that succeeds
forgets the row it has written.
-/

namespace TableMapper.RecordType

variable {σ : Type}

/-- The cache key of a row. -/
def cacheKey (t : RecordType) (key : List (String × Value)) : String :=
  TableMapper.cacheKey t.cacheStart (key.map fun (_, v) => v.keyText)

def find (t : RecordType) (x : Executor σ) (key : List (String × Value)) : Mapping σ (Option (Record t)) := do
  let q ← Mapping.ofExcept (Select.addPrimaryKey (Record t) key (Select.baseQuery (Record t)))
  if t.cacheEnabled then Mapping.fetchOneCached (Record t) x (t.cacheKey key) q
  else Mapping.onDatabase (Select.fetchOne (Record t) x q)

/-- The records with one of several keys. -/
def findByKeys (t : RecordType) (x : Executor σ) (keys : List (List (String × Value))) :
    Mapping σ (List (Record t)) := do
  if keys.isEmpty then pure []
  else
    let (added, q) := (Select.baseQuery (Record t)).addWhereKeys keys
    Mapping.ofExcept added
    Mapping.onDatabase (Select.fetchAll (Record t) x q)

def findAll (t : RecordType) (x : Executor σ) : Mapping σ (List (Record t)) :=
  Mapping.onDatabase (Select.fetchAll (Record t) x (Select.baseQuery (Record t)))

/-- Forgets the cached row of a record. -/
def invalidate (t : RecordType) (r : Record t) : Mapping σ Unit := do
  if t.cacheEnabled then Mapping.forget (t.cacheKey (Entity.keyValues r))

def insert (t : RecordType) (x : Executor σ) (r : Record t) : Mapping σ (ExecuteResult × Record t) :=
  Mapping.onDatabase (Write.insert x r)

/-- Inserts a record, or changes the row that has its key. -/
def upsert (t : RecordType) (x : Executor σ) (r : Record t) : Mapping σ (ExecuteResult × Record t) := do
  let (result, r) ← Mapping.onDatabase (Write.upsert x r)
  t.invalidate r
  pure (result, r)

/-- Changes the row of a record. -/
def update (t : RecordType) (x : Executor σ) (r : Record t) : Mapping σ Nat := do
  let affected ← Mapping.onDatabase (Write.update x r)
  t.invalidate r
  pure affected

/-- Deletes the row of a record. -/
def delete (t : RecordType) (x : Executor σ) (r : Record t) : Mapping σ Nat := do
  let affected ← Mapping.onDatabase (Write.delete x r)
  t.invalidate r
  pure affected

end TableMapper.RecordType
