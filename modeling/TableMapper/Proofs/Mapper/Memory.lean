import TableMapper.Proofs.Mapper.CachedTables

/-! # A database in memory

The cached tables as a list of rows under their keys, with an executor that knows the statements of the
mappers by their texts. It is a database of keyed tables.
-/

namespace TableMapper

/-- What a statement about a table does. -/
inductive Verb where
  | insert | upsert | update | delete | select
  deriving DecidableEq

namespace Verb

/-- Columns as they stand in the text of a statement, where their values do not count. -/
def blank (columns : List String) : List (String × Value) := columns.map (·, .null)

/-- The columns that are written when a row exists. -/
def changed (t : RecordType) : List String :=
  if (t.columns.filter fun c => !t.primaryKey.contains c).isEmpty then
    t.columns.filter fun c => t.primaryKey.contains c
  else t.columns.filter fun c => !t.primaryKey.contains c

/-- The text of a statement about records of a table. -/
def sql (t : RecordType) : Verb → String
  | insert => (Statement.insertInto t.table (blank (t.columns.filter (some · != t.autoIncrement)))).sql
  | upsert =>
    (Statement.insertOrChange t.table (blank (t.columns.filter (some · != t.autoIncrement)))
      (blank (changed t))).sql
  | update =>
    (Statement.updateWhere t.table (blank (t.columns.filter fun c => !t.primaryKey.contains c))
      (blank t.primaryKey)).sql
  | delete => (Statement.deleteWhere t.table (blank t.primaryKey)).sql
  | select => (Statement.selectWhere t.table t.columns (blank t.primaryKey)).sql

/-- The statements about cached tables. -/
def all : List (CachedTable × Verb) :=
  [CachedTable.user, .tagLink, .sample].flatMap fun t => [insert, upsert, update, delete, select].map (t, ·)

/-- What a statement does, and to which table, by its text. -/
def ofSql? (text : String) : Option (CachedTable × Verb) := all.find? fun (t, v) => v.sql t.type == text

theorem ofSql?_sql (t : CachedTable) (v : Verb) : ofSql? (v.sql t.type) = some (t, v) := by
  cases t <;> cases v <;> decide +kernel

end Verb

/-! ## Texts of statements -/

namespace Statement

theorem equations_congr (start : String) {cells cells' : List (String × Value)}
    (columns : cells.map (·.1) = cells'.map (·.1)) : equations start cells = equations start cells' := by
  have named : ∀ cells : List (String × Value), equations start cells =
      (cells.map (·.1)).map fun c => Identifier.quoted c ++ " = " ++ reference (start ++ c) := by
    intro cells
    rw [equations, List.map_map]
    rfl
  rw [named, named, columns]

end Statement

namespace Verb

theorem columns_blank (columns : List String) : (blank columns).map (·.1) = columns := by
  rw [blank, List.map_map]
  exact List.map_id' columns

variable {t : RecordType}

/-- Columns picked by name are picked from the cells of a record as from the columns of its table. -/
theorem columns_filter (r : Record t) (p : String → Bool) :
    ((Entity.values r).filter fun (c, _) => p c).map (·.1) = t.columns.filter p := by
  rw [← r.columns_values, List.filter_map]
  rfl

theorem columns_insertValues (r : Record t) :
    (Entity.insertValues r).map (·.1) = t.columns.filter (some · != t.autoIncrement) :=
  columns_filter r fun c => some c != t.autoIncrement

theorem columns_updateValues (r : Record t) :
    (Entity.updateValues r).map (·.1) = t.columns.filter fun c => !t.primaryKey.contains c :=
  columns_filter r fun c => !t.primaryKey.contains c

theorem columns_conflictValues (r : Record t) : (Write.conflictValues r).map (·.1) = changed t := by
  have same : (Entity.updateValues r).isEmpty =
      (t.columns.filter fun c => !t.primaryKey.contains c).isEmpty := by
    rw [← columns_updateValues r, List.isEmpty_map]
  rw [Write.conflictValues, changed, same]
  split
  · exact columns_filter r fun c => t.primaryKey.contains c
  · exact columns_updateValues r

theorem sql_insertInto (r : Record t) :
    (Statement.insertInto t.table (Entity.insertValues r)).sql = insert.sql t := by
  have columns := (columns_insertValues r).trans (columns_blank _).symm
  simp only [sql, Statement.insertInto, Statement.equations_congr "" columns]

theorem sql_insertOrChange (r : Record t) :
    (Statement.insertOrChange t.table (Entity.insertValues r) (Write.conflictValues r)).sql = upsert.sql t := by
  have columns := (columns_insertValues r).trans (columns_blank _).symm
  have changes := (columns_conflictValues r).trans (columns_blank _).symm
  simp only [sql, Statement.insertOrChange, Statement.equations_congr "" columns,
    Statement.equations_congr "update_" changes]

theorem sql_updateWhere (r : Record t) :
    (Statement.updateWhere t.table (Entity.updateValues r) r.key.cells).sql = update.sql t := by
  have columns := (columns_updateValues r).trans (columns_blank _).symm
  have key := r.key.columns_cells.trans (columns_blank _).symm
  simp only [sql, Statement.updateWhere, Statement.equations_congr "" columns,
    Statement.equations_congr "" key]

theorem sql_deleteWhere (k : t.Key) : (Statement.deleteWhere t.table k.cells).sql = delete.sql t := by
  have key := k.columns_cells.trans (columns_blank _).symm
  simp only [sql, Statement.deleteWhere, Statement.equations_congr "" key]

theorem sql_selectWhere (k : t.Key) :
    (Statement.selectWhere t.table t.columns k.cells).sql = select.sql t := by
  have named : ∀ cells : List (String × Value), (Statement.selectWhere t.table t.columns cells).sql =
      " ".intercalate ["SELECT " ++ ", ".intercalate (t.columns.map Identifier.quoted),
        "FROM " ++ Identifier.quoted t.table,
        "WHERE " ++ " AND ".intercalate ((cells.map (·.1)).map fun c =>
          Identifier.quoted t.table ++ "." ++ Identifier.quoted c ++ " = " ++ reference (t.table ++ "_" ++ c))] := by
    intro cells
    rw [Statement.selectWhere, List.map_map]
    rfl
  rw [named, k.columns_cells, sql, named, columns_blank]

end Verb

/-! ## Rows in memory -/

/-- Rows by table and key, and how many numbers were given to rows. -/
structure Memory where
  row : CachedTable → List (String × Value) → Option Row
  numbers : Nat

namespace Memory

def empty : Memory := ⟨fun _ _ => none, 0⟩

def rows (m : Memory) (k : RowKey) : Option Row := m.row k.1 k.2.cells

/-- Puts a row in a place, or empties it. -/
def set (m : Memory) (t : CachedTable) (key : List (String × Value)) (row : Option Row) : Memory :=
  { m with row := fun t' key' => if t' = t ∧ key' = key then row else m.row t' key' }

/-- The columns of the key, among values. -/
def keyOf (t : RecordType) (params : List (String × Value)) : List (String × Value) :=
  params.filter fun (c, _) => t.primaryKey.contains c

/-- The key of a new row: the given one, or the next number, which is reported. -/
def newKey (t : RecordType) (params : List (String × Value)) (number : Nat) :
    Option (List (String × Value) × Option Nat) :=
  match t.autoIncrement, t.fields with
  | none, _ => some (keyOf t params, none)
  | some _, f :: _ =>
    match f.type.scalar with
    | .integer kind => (Integer.ofInt? kind number).map fun n => ([(f.column, .integer n)], some number)
    | _ => none
  | some _, [] => none

/-- A new row: its key and the other columns. -/
def newRow (t : RecordType) (key params : List (String × Value)) : Row :=
  ⟨key ++ params.filter fun (c, _) => t.columns.contains c && !t.primaryKey.contains c⟩

/-- A row after some of its columns were changed. -/
def changedRow (params : List (String × Value)) (row : Row) : Row :=
  ⟨row.cells.map fun (c, v) => (c, (params.lookup c).getD v)⟩

/-- Runs a statement that writes. -/
def write (st : Statement) (m : Memory) : Except Error ExecuteResult × Memory :=
  match Verb.ofSql? st.sql with
  | some (t, .insert) =>
    match newKey t.type st.params (m.numbers + 1) with
    | some (key, id) =>
      match m.row t key with
      | none => (.ok ⟨1, id⟩, { m.set t key (newRow t.type key st.params) with numbers := m.numbers + 1 })
      | some _ => (.error (.query "duplicate key"), m)
    | none => (.error (.query "no number is left"), m)
  | some (t, .upsert) =>
    match newKey t.type st.params (m.numbers + 1) with
    | some (key, id) =>
      (.ok ⟨if (m.row t key).isSome then 2 else 1, id⟩,
        { m.set t key (newRow t.type key st.params) with numbers := m.numbers + 1 })
    | none => (.error (.query "no number is left"), m)
  | some (t, .update) =>
    match m.row t (keyOf t.type st.params) with
    | some row => (.ok ⟨1, none⟩, m.set t (keyOf t.type st.params) (changedRow st.params row))
    | none => (.ok ⟨0, none⟩, m)
  | some (t, .delete) =>
    (.ok ⟨if (m.row t st.params).isSome then 1 else 0, none⟩, m.set t st.params none)
  | _ => (.error (.query "unknown statement"), m)

/-- Fetches the rows of a statement that reads. -/
def fetch (st : Statement) (m : Memory) : Except Error (List Row) × Memory :=
  match Verb.ofSql? st.sql with
  | some (t, .select) => (.ok (m.row t (t.type.primaryKey.zip (st.params.map (·.2)))).toList, m)
  | _ => (.error (.query "unknown statement"), m)

def executor : Executor Memory where
  execute st := ExceptT.mk fun m => write st m
  fetchAll st := ExceptT.mk fun m => fetch st m

/-! ## It is a database of keyed tables -/

theorem agreeBeside_set {m : Memory} {t : CachedTable} {k : t.type.Key} {row : Option Row} {numbers : Nat} :
    AgreeBeside rows m { m.set t k.cells row with numbers } ⟨t, k⟩ := by
  rintro ⟨t', k'⟩ other
  refine if_neg fun same => other ?_
  obtain ⟨rfl, cells⟩ := same
  exact congrArg (Sigma.mk t') (RecordType.Key.cells_injective cells)

theorem keyOf_values {t : RecordType} (distinct : t.columns.Nodup) (r : Record t) :
    keyOf t (Entity.values r) = r.key.cells := r.keyValues_eq distinct

theorem keyOf_cells {t : RecordType} (k : t.Key) : keyOf t k.cells = k.cells := by
  refine List.filter_eq_self.2 fun cell member => ?_
  exact List.contains_iff_mem.2 (k.columns_cells ▸ List.mem_map_of_mem member)

theorem keyOf_insertValues {t : RecordType} (distinct : t.columns.Nodup) (auto : t.autoIncrement = none)
    (r : Record t) : keyOf t (Entity.insertValues r) = r.key.cells := by
  have all : Entity.insertValues r = Entity.values r := by
    refine List.filter_eq_self.2 fun cell _ => ?_
    change (some cell.1 != t.autoIncrement) = true
    rw [auto]
    rfl
  rw [all, keyOf_values distinct]

theorem keyOf_updates {t : RecordType} (unmixed : ∀ c ∈ t.columns, "update_" ++ c ∉ t.columns)
    {cells : List (String × Value)} (within : ∀ c ∈ cells.map (·.1), c ∈ t.columns) :
    keyOf t (cells.map fun (c, v) => ("update_" ++ c, v)) = [] := by
  refine List.filter_eq_nil_iff.2 fun cell member contained => ?_
  obtain ⟨⟨c, v⟩, origin, rfl⟩ := List.mem_map.1 member
  refine unmixed c (within c (List.mem_map_of_mem origin)) ?_
  exact List.map_subset _ (List.filter_subset_self _) (List.contains_iff_mem.1 contained)

theorem keyOf_updateValues {t : RecordType} (r : Record t) : keyOf t (Entity.updateValues r) = [] := by
  refine List.filter_eq_nil_iff.2 fun cell member contained => ?_
  have beside : (!t.primaryKey.contains cell.1) = true := (List.mem_filter.1 member).2
  rw [show t.primaryKey.contains cell.1 = true from contained] at beside
  exact Bool.false_ne_true beside

/-- The key of a record among what an insertion that may change a row binds. -/
theorem keyOf_upsert {t : RecordType} (h : t.Keyed) (auto : t.autoIncrement = none) (r : Record t) :
    keyOf t (Entity.insertValues r ++ (Write.conflictValues r).map fun (c, v) => ("update_" ++ c, v)) =
      r.key.cells := by
  have within : ∀ c ∈ (Write.conflictValues r).map (·.1), c ∈ t.columns := by
    obtain ⟨p, filtered⟩ := Write.conflictValues_eq_filter r
    rw [filtered, ← r.columns_values]
    exact Write.filter_columns_subset p
  rw [keyOf, List.filter_append]
  refine (congr (congrArg _ (keyOf_insertValues h.distinct auto r)) (keyOf_updates h.unmixed within)).trans ?_
  exact List.append_nil _

/-- A new key is that of the record, or the number that is reported. -/
theorem exists_newKey {t : RecordType} (numbered : t.autoIncrement = none ∨ t.Numbered) {r : Record t}
    {params key : List (String × Value)} {number : Nat} {id : Option Nat}
    (given : t.autoIncrement = none → keyOf t params = r.key.cells)
    (made : newKey t params (number + 1) = some (key, id)) :
    ∃ k : t.Key, key = k.cells ∧ ∀ affected, WroteAt r ⟨affected, id⟩ k := by
  cases auto : t.autoIncrement with
  | none =>
      simp only [newKey, auto, Option.some.injEq, Prod.mk.injEq] at made
      refine ⟨r.key, made.1.symm.trans (given auto), fun affected => ?_⟩
      rw [WroteAt, if_pos auto]
  | some c =>
      obtain ⟨f, fs, kind, fields, primary, -, type, others⟩ := numbered.resolve_left (by simp [auto])
      simp only [newKey, auto, fields, type] at made
      cases fits : Integer.ofInt? kind ((number + 1 : Nat) : Int) with
      | none => simp only [fits, Option.map_none, reduceCtorEq] at made
      | some n =>
          simp only [fits, Option.map_some, Option.some.injEq, Prod.mk.injEq] at made
          have only : t.keyFields = [f] := by
            rw [RecordType.keyFields, fields, List.filter_cons_of_pos primary,
              List.filter_eq_nil_iff.2 fun g member => by simp [others g member]]
          have typed : Typed t.keyFields [.integer n] := by
            rw [only]
            exact ⟨by simp [type, FieldType.holds, ScalarType.holds, ScalarType.kind_of_ofInt? fits], trivial⟩
          refine ⟨⟨[.integer n], typed⟩, ?_, fun affected => ?_⟩
          · rw [← made.1, RecordType.Key.cells, RecordType.primaryKey, ← RecordType.keyFields, only]
            rfl
          · rw [WroteAt, if_neg (by simp [auto])]
            exact ⟨number + 1, n, made.2.symm, Nat.succ_pos number, rfl, Integer.val_of_ofInt? fits⟩

/-- The executor keeps rows under their keys, as mappers expect. -/
theorem keyedTables : KeyedTables executor rows where
  select := by
    intro m t k
    change fetch _ m = _
    have place : t.type.primaryKey.zip ((k.cells.map fun (c, v) => (t.type.table ++ "_" ++ c, v)).map (·.2)) =
        k.cells := by
      rw [List.map_map, RecordType.Key.cells]
      exact congrArg t.type.primaryKey.zip k.values_cells
    rw [fetch, Verb.sql_selectWhere, Verb.ofSql?_sql]
    exact congrArg (fun key => (Except.ok (m.row t key).toList, m)) place
  insert := by
    intro m t r result m' ran
    change write _ m = _ at ran
    rw [write, Verb.sql_insertInto, Verb.ofSql?_sql] at ran
    simp only at ran
    split at ran
    · next key id made =>
        obtain ⟨k, rfl, wrote⟩ := exists_newKey t.numbered
          (fun auto => keyOf_insertValues t.keyed.distinct auto r) made
        split at ran
        · next new =>
            obtain ⟨result, rfl⟩ := Prod.mk.inj ran
            obtain rfl := Except.ok.inj result
            exact ⟨k, wrote _, new, agreeBeside_set⟩
        · cases (Prod.mk.inj ran).1
    · cases (Prod.mk.inj ran).1
  upsert := by
    intro m t r result m' ran
    change write _ m = _ at ran
    rw [write, Verb.sql_insertOrChange, Verb.ofSql?_sql] at ran
    simp only at ran
    split at ran
    · next key id made =>
        obtain ⟨k, rfl, wrote⟩ := exists_newKey t.numbered
          (fun auto => keyOf_upsert t.keyed auto r) made
        obtain ⟨result, rfl⟩ := Prod.mk.inj ran
        obtain rfl := Except.ok.inj result
        exact ⟨k, wrote _, agreeBeside_set⟩
    · cases (Prod.mk.inj ran).1
  update := by
    intro m t r result m' ran
    change write _ m = _ at ran
    have key : keyOf t.type (Entity.updateValues r ++ r.key.cells) = r.key.cells := by
      rw [keyOf, List.filter_append]
      exact congr (congrArg _ (keyOf_updateValues r)) (keyOf_cells r.key)
    rw [write, Verb.sql_updateWhere, Verb.ofSql?_sql] at ran
    simp only [Statement.updateWhere, key] at ran
    split at ran
    · obtain ⟨-, rfl⟩ := Prod.mk.inj ran
      exact agreeBeside_set
    · obtain ⟨-, rfl⟩ := Prod.mk.inj ran
      exact fun _ _ => rfl
  delete := by
    intro m t r result m' ran
    change write _ m = _ at ran
    rw [write, Verb.sql_deleteWhere, Verb.ofSql?_sql] at ran
    obtain ⟨-, rfl⟩ := Prod.mk.inj ran
    exact agreeBeside_set
  failed := by
    intro m st e m' ran
    change write st m = _ at ran
    rw [write] at ran
    repeat' split at ran
    all_goals
      obtain ⟨result, rfl⟩ := Prod.mk.inj ran
      first
        | rfl
        | cases result

end Memory

end TableMapper
