import TableMapper.Proofs.Mapper.Memory

/-! # Mappers that share a cache

The mappers of the cached tables may share one cache. On a database that keeps its rows under their keys,
they answer every sequence of calls as they would without a cache, and leave the database in the same state.
What carries this is that a row in the cache is the one in the table.
-/

namespace TableMapper

/-! ## Lookups in a cache -/

namespace Cache

theorem get?_erase (c : Cache) (key other : String) :
    (c.erase key).get? other = if other = key then none else c.get? other := by
  obtain ⟨entries⟩ := c
  induction entries with
  | nil => simp only [erase, get?, List.filter_nil, List.lookup_nil, ite_self]
  | cons entry entries ih =>
      obtain ⟨k, row⟩ := entry
      simp only [erase, get?, List.filter_cons, List.lookup_cons] at ih ⊢
      by_cases erased : k = key
      · subst erased
        simp only [bne_self_eq_false, Bool.false_eq_true, if_false, ih]
        split
        · rfl
        · next differ => rw [beq_false_of_ne differ]
      · rw [if_pos (bne_iff_ne.2 erased), List.lookup_cons, ih]
        by_cases same : other = k
        · subst same
          simp only [beq_self_eq_true, if_neg erased]
        · simp only [beq_false_of_ne same]

theorem get?_insert (c : Cache) (key : String) (row : Row) (other : String) :
    (c.insert key row).get? other = if other = key then some row else c.get? other := by
  have rest := get?_erase c key other
  simp only [insert, get?, List.lookup_cons] at rest ⊢
  by_cases same : other = key
  · rw [if_pos same, beq_iff_eq.2 same]
  · rw [if_neg same, beq_false_of_ne same]
    exact rest.trans (if_neg same)

end Cache

variable {σ : Type}

/-! ## Coherent caches -/

/-- Every row in the cache is the one in its place. -/
def Coherent (rows : RowKey → Option Row) (cache : Cache) : Prop :=
  ∀ (k : RowKey) row, cache.get? k.cacheKey = some row → rows k = some row

namespace Coherent

variable {rows rows' : RowKey → Option Row} {cache : Cache}

theorem empty : Coherent rows .empty := fun _ _ h => nomatch h

/-- Keeping the row of a place keeps a cache coherent, since no other place has the same cache key. -/
theorem keep (h : Coherent rows cache) {k : RowKey} {row : Row} (stored : rows k = some row) :
    Coherent rows (cache.insert k.cacheKey row) := by
  intro k' row' found
  rw [Cache.get?_insert] at found
  split at found
  · next same =>
      obtain rfl := RowKey.cacheKey_injective same
      exact stored.trans found
  · exact h k' row' found

/-- Once its row is forgotten, a place may change. -/
theorem erase (h : Coherent rows cache) {k : RowKey} (beside : ∀ k', k' ≠ k → rows' k' = rows k') :
    Coherent rows' (cache.erase k.cacheKey) := by
  intro k' row found
  rw [Cache.get?_erase] at found
  split at found
  · exact nomatch found
  · next other =>
      rw [beside k' fun same => other (congrArg RowKey.cacheKey same)]
      exact h k' row found

/-- A place without a row may change with nothing forgotten. -/
theorem of_new (h : Coherent rows cache) {k : RowKey} (new : rows k = none)
    (beside : ∀ k', k' ≠ k → rows' k' = rows k') : Coherent rows' cache := by
  intro k' row found
  have stored := h k' row found
  rw [beside k' fun same => ?_]
  · exact stored
  · rw [same, new] at stored
    exact nomatch stored

end Coherent

/-- A record that was inserted, or has changed a row, has the key of that row afterwards. -/
theorem WroteAt.key_afterUpsert {t : RecordType} {r : Record t} {result : ExecuteResult} {k : t.Key}
    (wrote : WroteAt r result k) (numbered : t.autoIncrement = none ∨ t.Numbered) :
    (Write.afterUpsert r result).key = k := by
  cases auto : t.autoIncrement with
  | none =>
      have same : Write.afterUpsert r result = r := by
        have none : Entity.autoIncrement (Record t) = none := auto
        rw [Write.afterUpsert, none]
      rw [WroteAt, if_pos auto] at wrote
      rw [same, wrote]
  | some c =>
      rw [WroteAt, if_neg (by simp [auto])] at wrote
      obtain ⟨id, n, reported, positive, key, val⟩ := wrote
      have numbered : t.Numbered := numbered.resolve_left (by simp [auto])
      have taken : Write.afterUpsert r result = r.setGeneratedId id := by
        have some : Entity.autoIncrement (Record t) = some c := auto
        rw [Write.afterUpsert, some, reported]
        exact if_neg (Nat.pos_iff_ne_zero.1 positive)
      rw [taken]
      exact r.key_setGeneratedId numbered key val

/-! ## Calls -/

/-- A call of a mapper of a cached table. -/
inductive Call where
  | find (t : CachedTable) (k : t.type.Key)
  | change (t : CachedTable) (w : Change t.type)

namespace Call

def perform (x : Executor σ) : Call → Mapping σ (Σ t : CachedTable, Answer t.type)
  | find t k => do pure ⟨t, .found (← t.type.find x k.cells)⟩
  | change t w => do pure ⟨t, ← w.perform x⟩

/-- Makes calls in turn. Each has its answer, also if it fails. -/
def run (x : Executor σ) :
    List Call → Client σ → List (Except Error (Σ t : CachedTable, Answer t.type)) × Client σ
  | [], c => ([], c)
  | call :: calls, c =>
    let (answer, c) := (call.perform x).run.run c
    let (answers, c) := run x calls c
    (answer :: answers, c)

variable {x : Executor σ} {rows : σ → RowKey → Option Row}

/-- A change that succeeds leaves a coherent cache: what it touched was forgotten, or new. -/
theorem coherent_settle (h : KeyedTables x rows) {t : CachedTable} {w : Change t.type} {st : Statement}
    (built : w.statement = .ok st) {s s' : σ} {result : ExecuteResult}
    (ran : (x.execute st).run.run s = (.ok result, s')) {cache : Cache} (coherent : Coherent (rows s) cache) :
    Coherent (rows s') (w.settle result cache) := by
  cases w with
  | insert r =>
      obtain rfl := Except.ok.inj ((t.keyed.insertStatement_eq r).symm.trans built)
      obtain ⟨k, -, new, beside⟩ := h.insert s t r result s' ran
      exact coherent.of_new new beside
  | upsert r =>
      obtain rfl := Except.ok.inj ((t.keyed.upsertStatement_eq r).symm.trans built)
      -- the key is forgotten after the record has taken over its number, so it is the one that was written
      obtain ⟨k, wrote, beside⟩ := h.upsert s t r result s' ran
      rw [← wrote.key_afterUpsert t.numbered] at beside
      exact coherent.erase beside
  | update r =>
      have statement := t.keyed.updateStatement_eq r
      split at statement
      · exact nomatch statement.symm.trans built
      · obtain rfl := Except.ok.inj (statement.symm.trans built)
        exact coherent.erase (h.update s t r result s' ran)
  | delete r =>
      obtain rfl := Except.ok.inj ((t.keyed.deleteStatement_eq r).symm.trans built)
      exact coherent.erase (h.delete s t r result s' ran)

theorem coherent_keepRead {t : CachedTable} {k : t.type.Key} {rows : RowKey → Option Row} {cache : Cache}
    (coherent : Coherent rows cache) :
    Coherent rows (t.type.keepRead (t.type.cacheKey k.cells) (rows ⟨t, k⟩) cache) := by
  unfold RecordType.keepRead
  split
  · next row _ stored _ => exact coherent.keep (k := ⟨t, k⟩) stored
  · exact coherent

/-- With a coherent cache a call has the answer that it has without a cache, and leaves the database in the
same state and the cache coherent. -/
theorem perform_of_coherent (h : KeyedTables x rows) (call : Call) {s : σ} {cache : Cache}
    (coherent : Coherent (rows s) cache) :
    ∃ answer s' cache', Coherent (rows s') cache' ∧
      (call.perform x).run.run ⟨s, some cache⟩ = (answer, ⟨s', some cache'⟩) ∧
      (call.perform x).run.run ⟨s, none⟩ = (answer, ⟨s', none⟩) := by
  cases call with
  | find t k =>
      have ran := RecordType.run_find t.keyed t.cacheEnabled (h.select s t k)
      simp only [perform, Mapping.run_map, ran]
      -- only a lookup reads the cache, and what it finds there is the stored row
      cases kept : cache.get? (t.type.cacheKey k.cells) with
      | some row =>
          have stored : rows s ⟨t, k⟩ = some row := coherent ⟨t, k⟩ row kept
          exact ⟨_, s, cache, coherent, rfl, by rw [stored]⟩
      | none => exact ⟨_, s, _, coherent_keepRead coherent, rfl, rfl⟩
  | change t w =>
      simp only [perform, Mapping.run_map]
      cases built : w.statement with
      | error e =>
          simp only [Change.run_perform_of_error built]
          exact ⟨_, s, cache, coherent, rfl, rfl⟩
      | ok st =>
          simp only [Change.run_perform t.keyed.distinct t.cacheEnabled built]
          cases ran : (x.execute st).run.run s with
          | mk result s' =>
              cases result with
              | ok result => exact ⟨_, s', _, coherent_settle h built ran coherent, rfl, rfl⟩
              | error e =>
                  have unchanged := h.failed s st e s' ran
                  exact ⟨_, s', cache, unchanged ▸ coherent, rfl, rfl⟩

/-- Mappers that share a cache, empty at first, answer all calls as mappers without a cache do, and leave the
database in the same state. -/
theorem run_cached_eq_run_uncached (h : KeyedTables x rows) (s : σ) (calls : List Call) :
    (run x calls ⟨s, some .empty⟩).1 = (run x calls ⟨s, none⟩).1 ∧
      (run x calls ⟨s, some .empty⟩).2.database = (run x calls ⟨s, none⟩).2.database := by
  -- both databases go through the same states; the cache, which only one run has, stays coherent with them
  have coherently : ∀ (calls : List Call) (s : σ) (cache : Cache), Coherent (rows s) cache →
      (run x calls ⟨s, some cache⟩).1 = (run x calls ⟨s, none⟩).1 ∧
        (run x calls ⟨s, some cache⟩).2.database = (run x calls ⟨s, none⟩).2.database := by
    intro calls
    induction calls with
    | nil => exact fun s cache _ => ⟨rfl, rfl⟩
    | cons call calls ih =>
        intro s cache coherent
        obtain ⟨answer, s', cache', coherent', cached, uncached⟩ := perform_of_coherent h call coherent
        obtain ⟨answers, database⟩ := ih s' cache' coherent'
        simp only [run, cached, uncached]
        exact ⟨congrArg (answer :: ·) answers, database⟩
  exact coherently calls s .empty Coherent.empty

def firstUser : Shop.user.Key := ⟨[.integer (.one .uint32)], rfl, trivial⟩

/-- A user is looked for, inserted, looked up, changed and looked up again; a pair of tags is written, and
deleted after an attempt to change it. -/
def someCalls : List Call :=
  [.find .user firstUser, .change .user (.insert (.new _)), .find .user firstUser, .find .user firstUser,
   .change .user (.update ((Record.new _).setGeneratedId 1)), .find .user firstUser,
   .change .tagLink (.upsert (.new _)), .change .tagLink (.update (.new _)),
   .change .tagLink (.delete (.new _))]

/-- These calls in memory. The one that fails has no column to change. -/
theorem run_cached_in_memory :
    KeyedTables Memory.executor Memory.rows ∧
      (run Memory.executor someCalls ⟨.empty, some .empty⟩).1 =
        (run Memory.executor someCalls ⟨.empty, none⟩).1 ∧
      (run Memory.executor someCalls ⟨.empty, some .empty⟩).2.database =
        (run Memory.executor someCalls ⟨.empty, none⟩).2.database ∧
      (run Memory.executor someCalls ⟨.empty, none⟩).1.map (·.isOk) =
        [true, true, true, true, true, true, true, false, true] := by
  obtain ⟨answers, database⟩ := run_cached_eq_run_uncached Memory.keyedTables .empty someCalls
  exact ⟨Memory.keyedTables, answers, database, by decide +kernel⟩

end Call

end TableMapper
