import TableMapper.Mapper.Keyed
import TableMapper.Proofs.Mapper.RecordKey

/-! # Mappers of keyed tables

What each operation of a mapper sends for a table that has a key and plain names, and what it makes of the
client: an answer, the state in which the statement left the database, and the cache.
-/

namespace TableMapper

open Identifier (IsName)

variable {σ : Type}

/-! ## Running work -/

/-- Work that runs one statement and makes something of its result. -/
theorem Access.run_execute {α : Type} {x : Executor σ} {built : Except Error Statement} {st : Statement}
    (ok : built = .ok st) (after : ExecuteResult → α) (s : σ) :
    (do let result ← x.execute (← Access.ofExcept built); pure (after result) : Access σ α).run.run s =
      (((x.execute st).run.run s).1.map after, ((x.execute st).run.run s).2) := by
  subst ok
  change ((x.execute st >>= fun result => pure (after result) : Access σ α).run.run s) = _
  simp only [ExceptT.run_bind, StateT.run_bind]
  cases h : (x.execute st).run.run s with
  | mk result s' => cases result <;> rfl

/-- Work on a statement that cannot be built leaves the database alone. -/
theorem Access.run_of_error {α : Type} {x : Executor σ} {built : Except Error Statement} {e : Error}
    (failed : built = .error e) (after : ExecuteResult → α) (s : σ) :
    (do let result ← x.execute (← Access.ofExcept built); pure (after result) : Access σ α).run.run s =
      (.error e, s) := by
  subst failed
  rfl

namespace Mapping

theorem run_onDatabase {α : Type} (work : Access σ α) (c : Client σ) :
    (onDatabase work).run.run c =
      ((work.run.run c.database).1, { c with database := (work.run.run c.database).2 }) := by
  have split : (onDatabase work).run.run c =
      (ofExcept (work.run.run c.database).1 : Mapping σ α).run.run
        { c with database := (work.run.run c.database).2 } := rfl
  rw [split]
  cases (work.run.run c.database).1 <;> rfl

theorem run_map {α β : Type} (work : Mapping σ α) (f : α → β) (c : Client σ) :
    (do pure (f (← work)) : Mapping σ β).run.run c = ((work.run.run c).1.map f, (work.run.run c).2) := by
  simp only [ExceptT.run_bind, StateT.run_bind]
  cases h : work.run.run c with
  | mk result c' => cases result <;> rfl

end Mapping

/-! ## Statements about records -/

/-- A table with a key and plain names, in which not every column is numbered by the database. -/
structure RecordType.Keyed (t : RecordType) : Prop where
  table : IsName t.table.toList
  columns : ∀ c ∈ t.columns, IsName c.toList
  distinct : t.columns.Nodup
  unmixed : ∀ c ∈ t.columns, "update_" ++ c ∉ t.columns
  keyed : t.primaryKey ≠ []
  written : ∃ c ∈ t.columns, some c ≠ t.autoIncrement

namespace RecordType.Keyed

variable {t : RecordType}

theorem plainNames (h : t.Keyed) (r : Record t) : PlainNames r where
  table := h.table
  columns := r.columns_values ▸ h.columns
  distinct := r.columns_values ▸ h.distinct
  unmixed := r.columns_values ▸ h.unmixed

theorem cells_ne_nil (h : t.Keyed) (k : t.Key) : k.cells ≠ [] := by
  intro empty
  refine h.keyed ?_
  rw [← k.columns_cells, empty]
  rfl

theorem insertValues_ne_nil (h : t.Keyed) (r : Record t) : Entity.insertValues r ≠ [] := by
  obtain ⟨c, member, written⟩ := h.written
  rw [← r.columns_values] at member
  obtain ⟨⟨d, v⟩, cell, rfl⟩ := List.mem_map.1 member
  exact List.ne_nil_of_mem (List.mem_filter.2 ⟨cell, bne_iff_ne.2 written⟩)

theorem conflictValues_ne_nil (h : t.Keyed) (r : Record t) : Write.conflictValues r ≠ [] := by
  unfold Write.conflictValues
  split
  · rw [r.keyValues_eq h.distinct]
    exact h.cells_ne_nil r.key
  · next some => exact fun none => some (List.isEmpty_iff.2 none)

theorem insertStatement_eq (h : t.Keyed) (r : Record t) :
    Write.insertStatement r = .ok (.insertInto t.table (Entity.insertValues r)) :=
  Write.insertStatement_eq (h.plainNames r) (h.insertValues_ne_nil r)

theorem upsertStatement_eq (h : t.Keyed) (r : Record t) :
    Write.upsertStatement r =
      .ok (.insertOrChange t.table (Entity.insertValues r) (Write.conflictValues r)) :=
  Write.upsertStatement_eq (h.plainNames r) (h.insertValues_ne_nil r) (h.conflictValues_ne_nil r)

/-- A table of nothing but keys has nothing to change. -/
theorem updateStatement_eq (h : t.Keyed) (r : Record t) :
    Write.updateStatement r =
      if Entity.updateValues r = [] then .error .emptySetClause
      else .ok (.updateWhere t.table (Entity.updateValues r) r.key.cells) := by
  have keyed : Entity.keyValues r ≠ [] := r.keyValues_eq h.distinct ▸ h.cells_ne_nil r.key
  split
  · next none => exact Write.updateStatement_of_empty (h.plainNames r) none
  · next some =>
      rw [← r.keyValues_eq h.distinct]
      exact Write.updateStatement_eq (h.plainNames r) some keyed

theorem deleteStatement_eq (h : t.Keyed) (r : Record t) :
    Write.deleteStatement r = .ok (.deleteWhere t.table r.key.cells) := by
  rw [← r.keyValues_eq h.distinct]
  exact Write.deleteStatement_eq (h.plainNames r) (r.keyValues_eq h.distinct ▸ h.cells_ne_nil r.key)

theorem selectStatement_eq (h : t.Keyed) (k : t.Key) :
    ∃ q, Select.addPrimaryKey (Record t) k.cells (Select.baseQuery (Record t)) = .ok q ∧
      q.build .select = .ok (.selectWhere t.table t.columns k.cells) := by
  have within : ∀ c ∈ t.primaryKey, c ∈ t.columns :=
    fun c member => List.map_subset _ (List.filter_subset_self _) member
  refine Select.selectStatement_eq (α := Record t) h.table h.columns ?_ h.keyed ?_ ?_ (h.cells_ne_nil k)
  · obtain ⟨c, member, -⟩ := h.written
    exact List.ne_nil_of_mem member
  · exact k.columns_cells ▸ fun c member => h.columns c (within c member)
  · exact k.columns_cells ▸ h.distinct.sublist (List.filter_sublist.map _)

end RecordType.Keyed

/-! ## Operations -/

/-- What a mapper can be asked to write. -/
inductive Change (t : RecordType) where
  | insert (r : Record t)
  | upsert (r : Record t)
  | update (r : Record t)
  | delete (r : Record t)

/-- What a mapper answers: the record that was looked for, what became of a record that was inserted, or how
many rows were changed. -/
inductive Answer (t : RecordType) where
  | found (r : Option (Record t))
  | written (result : ExecuteResult) (r : Record t)
  | affected (rows : Nat)

namespace Change

variable {t : RecordType}

def perform (x : Executor σ) : Change t → Mapping σ (Answer t)
  | insert r => do
    let (result, r) ← t.insert x r
    pure (.written result r)
  | upsert r => do
    let (result, r) ← t.upsert x r
    pure (.written result r)
  | update r => do
    let rows ← t.update x r
    pure (.affected rows)
  | delete r => do
    let rows ← t.delete x r
    pure (.affected rows)

def statement : Change t → Except Error Statement
  | insert r => Write.insertStatement r
  | upsert r => Write.upsertStatement r
  | update r => Write.updateStatement r
  | delete r => Write.deleteStatement r

/-- What a mapper answers when the statement has run. -/
def answer (result : ExecuteResult) : Change t → Answer t
  | insert r => .written result (Write.afterInsert r result)
  | upsert r => .written result (Write.afterUpsert r result)
  | update _ => .affected result.rowsAffected
  | delete _ => .affected result.rowsAffected

/-- The key whose row is forgotten when the statement has run. -/
def forgotten (result : ExecuteResult) : Change t → Option t.Key
  | insert _ => none
  | upsert r => some (Write.afterUpsert r result).key
  | update r => some r.key
  | delete r => some r.key

/-- The cache after the statement has run. -/
def settle (w : Change t) (result : ExecuteResult) (cache : Cache) : Cache :=
  match w.forgotten result with
  | some k => cache.erase (t.cacheKey k.cells)
  | none => cache

/-- A change whose statement cannot be built does nothing. -/
theorem run_perform_of_error {w : Change t} {e : Error} (failed : w.statement = .error e) (x : Executor σ)
    (c : Client σ) : (w.perform x).run.run c = (.error e, c) := by
  cases w with
  | insert r =>
      have ran : (Write.insert x r).run.run c.database = _ := Access.run_of_error failed _ _
      simp only [perform, RecordType.insert, ExceptT.run_bind, StateT.run_bind, Mapping.run_onDatabase, ran]
      rfl
  | upsert r =>
      have ran : (Write.upsert x r).run.run c.database = _ := Access.run_of_error failed _ _
      simp only [perform, RecordType.upsert, ExceptT.run_bind, StateT.run_bind, Mapping.run_onDatabase, ran]
      rfl
  | update r =>
      have ran : (Write.update x r).run.run c.database = _ := Access.run_of_error failed _ _
      simp only [perform, RecordType.update, ExceptT.run_bind, StateT.run_bind, Mapping.run_onDatabase, ran]
      rfl
  | delete r =>
      have ran : (Write.delete x r).run.run c.database = _ := Access.run_of_error failed _ _
      simp only [perform, RecordType.delete, ExceptT.run_bind, StateT.run_bind, Mapping.run_onDatabase, ran]
      rfl

/-- A change runs its statement. If that fails the cache stays; else the row that was written is forgotten. -/
theorem run_perform {w : Change t} {st : Statement} (distinct : t.columns.Nodup)
    (cached : t.cacheEnabled = true) (built : w.statement = .ok st) (x : Executor σ) (c : Client σ) :
    (w.perform x).run.run c =
      match (x.execute st).run.run c.database with
      | (.ok result, s) => (.ok (w.answer result), ⟨s, c.cache.map (w.settle result)⟩)
      | (.error e, s) => (.error e, ⟨s, c.cache⟩) := by
  have keys : ∀ r : Record t, t.cacheKey (Entity.keyValues r) = t.cacheKey r.key.cells :=
    fun r => congrArg t.cacheKey (r.keyValues_eq distinct)
  cases w with
  | insert r =>
      have ran : (Write.insert x r).run.run c.database = _ := Access.run_execute built _ _
      simp only [perform, RecordType.insert, ExceptT.run_bind, StateT.run_bind, Mapping.run_onDatabase, ran]
      cases (x.execute st).run.run c.database with
      | mk result s =>
          cases result with
          | ok result => cases c.cache <;> rfl
          | error e => rfl
  | upsert r =>
      have ran : (Write.upsert x r).run.run c.database = _ := Access.run_execute built _ _
      simp only [perform, RecordType.upsert, RecordType.invalidate, cached, if_true, keys, ExceptT.run_bind,
        StateT.run_bind, Mapping.run_onDatabase, ran]
      cases (x.execute st).run.run c.database with
      | mk result s => cases result <;> rfl
  | update r =>
      have ran : (Write.update x r).run.run c.database = _ := Access.run_execute built _ _
      simp only [perform, RecordType.update, RecordType.invalidate, cached, if_true, keys, ExceptT.run_bind,
        StateT.run_bind, Mapping.run_onDatabase, ran]
      cases (x.execute st).run.run c.database with
      | mk result s => cases result <;> rfl
  | delete r =>
      have ran : (Write.delete x r).run.run c.database = _ := Access.run_execute built _ _
      simp only [perform, RecordType.delete, RecordType.invalidate, cached, if_true, keys, ExceptT.run_bind,
        StateT.run_bind, Mapping.run_onDatabase, ran]
      cases (x.execute st).run.run c.database with
      | mk result s => cases result <;> rfl

end Change

namespace RecordType

variable {t : RecordType}

/-- The record in a row that was looked for. -/
def read (t : RecordType) : Option Row → Except Error (Option (Record t))
  | none => .ok none
  | some row => (Decodable.ofRow row : Except Error (Record t)).map some

/-- The cache after a row was looked for under a key that it did not have. -/
def keepRead (t : RecordType) (key : String) (row : Option Row) (cache : Cache) : Cache :=
  match row, t.read row with
  | some row, .ok _ => cache.insert key row
  | _, _ => cache

theorem run_fetchFirst {x : Executor σ} {st : Statement} {row : Option Row} {s : σ}
    (selected : (x.fetchAll st).run.run s = (.ok row.toList, s)) :
    (x.fetchFirst st).run.run s = (.ok row, s) := by
  simp only [Executor.fetchFirst, ExceptT.run_bind, StateT.run_bind, selected]
  cases row <;> rfl

/-- Without a cache, a lookup reads the row that the database answers with. -/
theorem run_fetchOne {x : Executor σ} {q : Query} {st : Statement} {row : Option Row} {s : σ}
    (built : q.build .select = .ok st) (selected : (x.fetchAll st).run.run s = (.ok row.toList, s)) :
    (Select.fetchOne (Record t) x q).run.run s = (t.read row, s) := by
  simp only [Select.fetchOne, built, Access.ofExcept, pure_bind, ExceptT.run_bind, StateT.run_bind,
    run_fetchFirst selected]
  cases row with
  | none => rfl
  | some row =>
      change (Access.ofExcept (Decodable.ofRow row) >>= fun r : Record t => pure (some r) :
        Access σ (Option (Record t))).run.run s = ((Decodable.ofRow row : Except Error (Record t)).map some, s)
      cases (Decodable.ofRow row : Except Error (Record t)) <;> rfl

/-- With a cache, a lookup that finds a row in it asks the database nothing. Else it reads the row that the
database answers with, and keeps it. -/
theorem run_fetchOneCached {x : Executor σ} {q : Query} {st : Statement} {row : Option Row} {s : σ}
    (built : q.build .select = .ok st) (selected : (x.fetchAll st).run.run s = (.ok row.toList, s))
    (key : String) (cache : Cache) :
    (Mapping.fetchOneCached (Record t) x key q).run.run ⟨s, some cache⟩ =
      match cache.get? key with
      | some kept => (t.read (some kept), ⟨s, some cache⟩)
      | none => (t.read row, ⟨s, some (t.keepRead key row cache)⟩) := by
  have looked : (Mapping.fetchOneCached (Record t) x key q).run.run ⟨s, some cache⟩ =
      (match cache.get? key with
        | some kept => do pure (some (← Mapping.ofExcept (Decodable.ofRow kept)))
        | none => do
          let statement ← Mapping.ofExcept (q.build .select)
          match ← Mapping.onDatabase (x.fetchFirst statement) with
          | none => pure none
          | some row =>
            let e ← Mapping.ofExcept (Decodable.ofRow row)
            Mapping.keep key row
            pure (some e) : Mapping σ (Option (Record t))).run.run ⟨s, some cache⟩ := rfl
  rw [looked]
  cases cache.get? key with
  | some kept =>
      change (Mapping.ofExcept (Decodable.ofRow kept) >>= fun r : Record t => pure (some r) :
        Mapping σ (Option (Record t))).run.run ⟨s, some cache⟩ =
          ((Decodable.ofRow kept : Except Error (Record t)).map some, ⟨s, some cache⟩)
      cases (Decodable.ofRow kept : Except Error (Record t)) <;> rfl
  | none =>
      simp only [built, Mapping.ofExcept, pure_bind, ExceptT.run_bind, StateT.run_bind,
        Mapping.run_onDatabase, run_fetchFirst selected]
      cases row with
      | none => rfl
      | some row =>
          change (do
            let e ← Mapping.ofExcept (Decodable.ofRow row)
            Mapping.keep key row
            pure (some e) : Mapping σ (Option (Record t))).run.run ⟨s, some cache⟩ = _
          simp only [keepRead, read]
          cases (Decodable.ofRow row : Except Error (Record t)) <;> rfl

/-- With a cache, a lookup reads the row that the cache has under the key, and failing that the one that the
database answers with. -/
theorem run_find (h : t.Keyed) (cached : t.cacheEnabled = true) {x : Executor σ} {k : t.Key}
    {row : Option Row} {s : σ}
    (selected : (x.fetchAll (.selectWhere t.table t.columns k.cells)).run.run s = (.ok row.toList, s))
    (cache : Option Cache) :
    (t.find x k.cells).run.run ⟨s, cache⟩ =
      match cache with
      | none => (t.read row, ⟨s, none⟩)
      | some cache =>
        match cache.get? (t.cacheKey k.cells) with
        | some kept => (t.read (some kept), ⟨s, some cache⟩)
        | none => (t.read row, ⟨s, some (t.keepRead (t.cacheKey k.cells) row cache)⟩) := by
  obtain ⟨q, added, built⟩ := h.selectStatement_eq k
  simp only [find, added, cached, if_true, Mapping.ofExcept, pure_bind]
  cases cache with
  | none =>
      have ran := Mapping.run_onDatabase (Select.fetchOne (Record t) x q) ⟨s, none⟩
      rw [run_fetchOne built selected] at ran
      exact ran
  | some cache =>
      exact run_fetchOneCached built selected (t.cacheKey k.cells) cache

end RecordType

end TableMapper
