import TableMapper.Proofs.Cache.Dotted
import TableMapper.Proofs.Mapper.Keyed
import TableMapper.Proofs.Number.Digits
import TableMapper.Shop

/-! # Cached tables

Three tables of the shop are cached. Their keys are integers, so every row of them has a cache key of its own.
`KeyedTables` says what mappers may expect of a database that keeps rows under their keys.
-/

namespace TableMapper

/-! ## The cached tables -/

/-- The tables of the shop whose rows are cached. -/
inductive CachedTable where
  | user | tagLink | sample
  deriving DecidableEq

namespace CachedTable

def type : CachedTable → RecordType
  | user => Shop.user
  | tagLink => Shop.tagLink
  | sample => Shop.sample

theorem cacheEnabled (t : CachedTable) : t.type.cacheEnabled = true := by
  cases t <;> rfl

theorem keyed (t : CachedTable) : t.type.Keyed := by
  cases t with
  | user => exact ⟨by decide, by decide, by decide, by decide, by decide, by decide⟩
  | tagLink => exact ⟨by decide, by decide, by decide, by decide, by decide, by decide⟩
  | sample => exact ⟨by decide, by decide, by decide, by decide, by decide, by decide⟩

/-- The database numbers the rows of a table by its only key, or not at all. -/
theorem numbered (t : CachedTable) : t.type.autoIncrement = none ∨ t.type.Numbered := by
  cases t with
  | user => exact .inr ⟨_, _, _, rfl, rfl, rfl, rfl, by decide⟩
  | tagLink => exact .inl rfl
  | sample => exact .inr ⟨_, _, _, rfl, rfl, rfl, rfl, by decide⟩

end CachedTable

/-- A place for a row: a cached table with a key. -/
abbrev RowKey := Σ t : CachedTable, t.type.Key

def RowKey.cacheKey (k : RowKey) : String := k.1.type.cacheKey k.2.cells

/-- The fields are integers without NULL. -/
def IntegerFields (fs : List RecordField) : Prop := ∀ f ∈ fs, ∃ kind, f.type = ⟨.integer kind, false⟩

namespace Typed

theorem integer_of_holds {kind : IntKind} {v : Value} (h : FieldType.holds ⟨.integer kind, false⟩ v = true) :
    ∃ n : Integer, v = .integer n ∧ n.kind = kind := by
  cases v <;> simp_all [FieldType.holds, ScalarType.holds]

theorem no_dot {fs : List RecordField} {vs : List Value} (h : Typed fs vs) (integers : IntegerFields fs) :
    ∀ text ∈ vs.map Value.keyText, '.' ∉ text.toList := by
  induction fs generalizing vs with
  | nil =>
      cases vs with
      | nil => exact fun _ member => nomatch member
      | cons v vs => exact h.elim
  | cons f fs ih =>
      cases vs with
      | nil => exact h.elim
      | cons v vs =>
          obtain ⟨kind, type⟩ := integers f (List.mem_cons_self ..)
          obtain ⟨n, rfl, -⟩ := integer_of_holds (type ▸ h.1)
          rw [List.map_cons, List.forall_mem_cons]
          exact ⟨Integer.not_mem_text rfl (by decide),
            ih h.2 fun g member => integers g (List.mem_cons_of_mem f member)⟩

theorem eq_of_keyTexts_eq {fs : List RecordField} {vs ws : List Value} (hv : Typed fs vs) (hw : Typed fs ws)
    (integers : IntegerFields fs) (same : vs.map Value.keyText = ws.map Value.keyText) : vs = ws := by
  induction fs generalizing vs ws with
  | nil =>
      cases vs <;> cases ws
      · rfl
      · exact hw.elim
      · exact hv.elim
      · exact hv.elim
  | cons f fs ih =>
      cases vs <;> cases ws
      · exact hv.elim
      · exact hv.elim
      · exact hw.elim
      · next v vs w ws =>
          obtain ⟨kind, type⟩ := integers f (List.mem_cons_self ..)
          obtain ⟨m, rfl, km⟩ := integer_of_holds (type ▸ hv.1)
          obtain ⟨n, rfl, kn⟩ := integer_of_holds (type ▸ hw.1)
          obtain ⟨first, rest⟩ := List.cons.inj same
          rw [Integer.text_injective (km.trans kn.symm) first,
            ih hv.2 hw.2 (fun g member => integers g (List.mem_cons_of_mem f member)) rest]

end Typed

namespace RowKey

theorem integerFields (t : CachedTable) : IntegerFields t.type.keyFields := by
  intro f member
  cases t with
  | user =>
      obtain rfl := List.mem_singleton.1 member
      exact ⟨_, rfl⟩
  | tagLink =>
      obtain rfl | rfl := List.mem_pair.1 member
      · exact ⟨_, rfl⟩
      · exact ⟨_, rfl⟩
  | sample =>
      obtain rfl := List.mem_singleton.1 member
      exact ⟨_, rfl⟩

theorem cacheKey_eq (k : RowKey) :
    k.cacheKey = TableMapper.cacheKey k.1.type.cacheStart (k.2.values.map Value.keyText) := by
  rw [cacheKey, RecordType.cacheKey, ← k.2.values_cells, List.map_map]
  rfl

/-- None of the prefixes goes on where another ends. -/
theorem cacheStart_apart (t t' : CachedTable) :
    ¬ (t.type.cacheStart ++ ".").toList <+: t'.type.cacheStart.toList := by
  cases t <;> cases t' <;> decide

theorem cacheStart_injective {t t' : CachedTable} (h : t.type.cacheStart = t'.type.cacheStart) : t = t' := by
  revert h
  cases t <;> cases t' <;> decide

/-- Every place has a cache key of its own. -/
theorem cacheKey_injective {k k' : RowKey} (h : k.cacheKey = k'.cacheKey) : k = k' := by
  rw [cacheKey_eq, cacheKey_eq] at h
  obtain ⟨t, k⟩ := k
  obtain ⟨t', k'⟩ := k'
  obtain ⟨start, texts⟩ := eq_of_cacheKey_eq (k.typed.no_dot (integerFields t))
    (k'.typed.no_dot (integerFields t')) (cacheStart_apart t t') (cacheStart_apart t' t) h
  obtain rfl := cacheStart_injective start
  exact congrArg (Sigma.mk t)
    (RecordType.Key.ext (k.typed.eq_of_keyTexts_eq k'.typed (integerFields t) texts))

end RowKey

/-! ## Databases of keyed tables -/

variable {σ : Type}

/-- The rows of two states agree, but for one place. -/
def AgreeBeside (rows : σ → RowKey → Option Row) (s s' : σ) (k : RowKey) : Prop :=
  ∀ k', k' ≠ k → rows s' k' = rows s k'

/-- An insertion of a record has written the row with a key: the key of the record, or that of the number
which the database reports. -/
def WroteAt {t : RecordType} (r : Record t) (result : ExecuteResult) (k : t.Key) : Prop :=
  if t.autoIncrement = none then k = r.key
  else ∃ (id : Nat) (n : Integer),
    result.lastInsertId = some id ∧ 0 < id ∧ k.values = [.integer n] ∧ n.val = id

/-- An executor over cached tables that keeps at most one row under a key. A lookup answers the row under
the key and changes nothing; a change or deletion by key touches only the row under the key; an insertion
writes a row under a key that had none, and an insertion that may change a row writes one row. A statement that
fails changes no row. -/
structure KeyedTables (x : Executor σ) (rows : σ → RowKey → Option Row) : Prop where
  select : ∀ s (t : CachedTable) (k : t.type.Key),
    (x.fetchAll (.selectWhere t.type.table t.type.columns k.cells)).run.run s =
      (.ok (rows s ⟨t, k⟩).toList, s)
  insert : ∀ s (t : CachedTable) (r : Record t.type) result s',
    (x.execute (.insertInto t.type.table (Entity.insertValues r))).run.run s = (.ok result, s') →
      ∃ k, WroteAt r result k ∧ rows s ⟨t, k⟩ = none ∧ AgreeBeside rows s s' ⟨t, k⟩
  upsert : ∀ s (t : CachedTable) (r : Record t.type) result s',
    (x.execute (.insertOrChange t.type.table (Entity.insertValues r) (Write.conflictValues r))).run.run s =
        (.ok result, s') →
      ∃ k, WroteAt r result k ∧ AgreeBeside rows s s' ⟨t, k⟩
  update : ∀ s (t : CachedTable) (r : Record t.type) result s',
    (x.execute (.updateWhere t.type.table (Entity.updateValues r) r.key.cells)).run.run s = (.ok result, s') →
      AgreeBeside rows s s' ⟨t, r.key⟩
  delete : ∀ s (t : CachedTable) (r : Record t.type) result s',
    (x.execute (.deleteWhere t.type.table r.key.cells)).run.run s = (.ok result, s') →
      AgreeBeside rows s s' ⟨t, r.key⟩
  failed : ∀ s st e s', (x.execute st).run.run s = (.error e, s') → rows s' = rows s

end TableMapper
