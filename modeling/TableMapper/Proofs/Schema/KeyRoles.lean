import TableMapper.Proofs.KeyMap
import TableMapper.Sql.Script

/-! # Roles of columns in keys

A definition says in several places which keys a column is part of: in its own options, and in the constraints of
its table. Each of them only adds to the role that the column has so far, and the primary key outweighs the others,
so that neither the order of the options nor that of the constraints matters. Constraints go by name; where names
are distinct, a constraint says of each column what it says of it alone. Main statement: `describe_keys`.
-/

namespace TableMapper

/-! ## Roles that grow -/

/-- A role is known by whether it is that of the primary key and whether it is one at all. -/
theorem KeyRole.eq_of_iff {a b : KeyRole} (primary : a = .primary ↔ b = .primary) (keyed : a ≠ .none ↔ b ≠ .none) :
    a = b := by
  cases a <;> cases b <;> simp_all

theorem KeyRole.eq_unique_iff {a : KeyRole} : a = .unique ↔ a ≠ .primary ∧ a ≠ .none := by
  cases a <;> simp

/-- What steps only add to, as long as they keep something else, holds in the end if it held before or one of the
steps has added it. -/
theorem foldl_iff_of_adds {σ α : Type} {step : σ → α → σ} {I P : σ → Prop} {Q : α → Prop}
    (keeps : ∀ s a, I s → I (step s a)) (adds : ∀ s a, I s → (P (step s a) ↔ P s ∨ Q a)) {s : σ} (start : I s)
    (l : List α) : P (l.foldl step s) ↔ P s ∨ ∃ a ∈ l, Q a := by
  induction l generalizing s with
  | nil => simp
  | cons a l ih => rw [List.foldl_cons, ih (keeps s a start), adds s a start, List.exists_mem_cons_iff, or_assoc]

namespace SchemaColumn

@[simp] theorem name_makePrimary (c : SchemaColumn) : c.makePrimary.name = c.name := rfl

@[simp] theorem key_makePrimary (c : SchemaColumn) : c.makePrimary.key = .primary := rfl

theorem makePrimary_makePrimary (c : SchemaColumn) : c.makePrimary.makePrimary = c.makePrimary := rfl

@[simp] theorem name_makeUnique (c : SchemaColumn) : c.makeUnique.name = c.name := by
  unfold makeUnique
  split <;> rfl

/-- A unique key takes nothing away from the primary key. -/
@[simp] theorem key_makeUnique_eq_primary_iff (c : SchemaColumn) : c.makeUnique.key = .primary ↔ c.key = .primary := by
  unfold makeUnique
  split
  · next none => simp [none]
  · rfl

@[simp] theorem key_makeUnique_ne_none (c : SchemaColumn) : c.makeUnique.key ≠ .none := by
  unfold makeUnique
  split
  · exact KeyRole.noConfusion
  · next other => exact other

end SchemaColumn

/-! ## Options of a column -/

namespace ColumnOption

@[simp] theorem name_apply (c : SchemaColumn) (o : ColumnOption) : (apply c o).name = c.name := by
  cases o <;> simp [apply]

theorem key_apply_eq_primary_iff (c : SchemaColumn) (o : ColumnOption) :
    (apply c o).key = .primary ↔ c.key = .primary ∨ o = .primaryKey := by
  cases o <;> simp [apply]

theorem key_apply_ne_none_iff (c : SchemaColumn) (o : ColumnOption) :
    (apply c o).key ≠ .none ↔ c.key ≠ .none ∨ (o = .primaryKey ∨ o = .unique) := by
  cases o <;> simp [apply]

theorem name_foldl_apply (c : SchemaColumn) (options : List ColumnOption) :
    (options.foldl apply c).name = c.name := by
  induction options generalizing c with
  | nil => rfl
  | cons o options ih => rw [List.foldl_cons, ih, name_apply]

end ColumnOption

namespace ColumnDefinition

theorem name_describe (c : ColumnDefinition) : c.describe.name = c.name := ColumnOption.name_foldl_apply _ _

theorem key_describe_eq_primary_iff (c : ColumnDefinition) : c.describe.key = .primary ↔ .primaryKey ∈ c.options := by
  rw [describe]
  refine Iff.trans (foldl_iff_of_adds (I := fun _ => True) (P := fun d : SchemaColumn => d.key = .primary)
    (fun _ _ _ => trivial) (fun d o _ => ColumnOption.key_apply_eq_primary_iff d o) trivial c.options) ?_
  simp

theorem key_describe_ne_none_iff (c : ColumnDefinition) :
    c.describe.key ≠ .none ↔ .primaryKey ∈ c.options ∨ .unique ∈ c.options := by
  rw [describe]
  refine Iff.trans (foldl_iff_of_adds (I := fun _ => True) (P := fun d : SchemaColumn => d.key ≠ .none)
    (fun _ _ _ => trivial) (fun d o _ => ColumnOption.key_apply_ne_none_iff d o) trivial c.options) ?_
  simp [and_or_left, exists_or]

end ColumnDefinition

/-! ## Constraints on a table -/

/-- Under distinct names, changing the first column of a name is changing every column of it. -/
theorem changeNamed_eq_map {columns : List SchemaColumn} (distinct : (columns.map (·.name)).Nodup) (name : String)
    (change : SchemaColumn → SchemaColumn) :
    changeNamed name change columns = columns.map fun c => if c.name = name then change c else c := by
  induction columns with
  | nil => rfl
  | cons c columns ih =>
      rw [List.map_cons, List.nodup_cons] at distinct
      rw [changeNamed, List.map_cons]
      split
      · next same =>
        have others : columns.map (fun c => if c.name = name then change c else c) = columns := by
          refine (List.map_congr_left fun d member => ?_).trans (List.map_id _)
          refine if_neg fun same' => distinct.1 ?_
          rw [same, ← same']
          exact List.mem_map_of_mem member
        rw [others]
      · rw [ih distinct.2]

namespace TableConstraint

/-- What a constraint says of one column. -/
def applyTo (c : SchemaColumn) : TableConstraint → SchemaColumn
  | primaryKey names => if c.name ∈ names then c.makePrimary else c
  | unique names => if names = [c.name] then c.makeUnique else c
  | other => c

@[simp] theorem name_applyTo (c : SchemaColumn) (k : TableConstraint) : (applyTo c k).name = c.name := by
  cases k with
  | other => rfl
  | primaryKey | unique => simp only [applyTo]; split <;> simp

theorem names_map_applyTo (columns : List SchemaColumn) (k : TableConstraint) :
    (columns.map (applyTo · k)).map (·.name) = columns.map (·.name) := by
  simp [Function.comp_def]

theorem foldl_changeNamed_makePrimary {columns : List SchemaColumn} (distinct : (columns.map (·.name)).Nodup)
    (names : List String) :
    names.foldl (fun cs name => changeNamed name SchemaColumn.makePrimary cs) columns =
      columns.map (applyTo · (.primaryKey names)) := by
  induction names generalizing columns with
  | nil => simp [applyTo]
  | cons name names ih =>
      have kept : ∀ c : SchemaColumn, (if c.name = name then c.makePrimary else c).name = c.name := by
        intro c
        split <;> rfl
      rw [List.foldl_cons, changeNamed_eq_map distinct, ih (by simpa [Function.comp_def, kept] using distinct),
        List.map_map]
      refine List.map_congr_left fun c _ => ?_
      simp only [Function.comp_apply, applyTo, kept, List.mem_cons]
      by_cases first : c.name = name <;> by_cases later : c.name ∈ names <;>
        simp [first, later, SchemaColumn.makePrimary_makePrimary]

/-- Under distinct names, a constraint says of each column what it says of it alone. -/
theorem apply_eq_map {columns : List SchemaColumn} (distinct : (columns.map (·.name)).Nodup) (k : TableConstraint) :
    apply columns k = columns.map (applyTo · k) := by
  cases k with
  | primaryKey names => exact foldl_changeNamed_makePrimary distinct names
  | other => simp [apply, applyTo]
  | unique names =>
      match names with
      | [name] => simp [apply, applyTo, changeNamed_eq_map distinct, eq_comm]
      | [] | _ :: _ :: _ => simp [apply, applyTo]

theorem foldl_apply_eq_map {columns : List SchemaColumn} (distinct : (columns.map (·.name)).Nodup)
    (constraints : List TableConstraint) :
    constraints.foldl apply columns = columns.map fun c => constraints.foldl applyTo c := by
  induction constraints generalizing columns with
  | nil => simp
  | cons k constraints ih =>
      rw [List.foldl_cons, apply_eq_map distinct, ih (names_map_applyTo columns k ▸ distinct), List.map_map]
      rfl

theorem key_applyTo_eq_primary_iff (c : SchemaColumn) (k : TableConstraint) :
    (applyTo c k).key = .primary ↔ c.key = .primary ∨ ∃ names, k = .primaryKey names ∧ c.name ∈ names := by
  cases k with
  | other => simp [applyTo]
  | primaryKey names => by_cases named : c.name ∈ names <;> simp [applyTo, named]
  | unique names => by_cases alone : names = [c.name] <;> simp [applyTo, alone]

theorem key_applyTo_ne_none_iff (c : SchemaColumn) (k : TableConstraint) :
    (applyTo c k).key ≠ .none ↔
      c.key ≠ .none ∨ ((∃ names, k = .primaryKey names ∧ c.name ∈ names) ∨ k = .unique [c.name]) := by
  cases k with
  | other => simp [applyTo]
  | primaryKey names => by_cases named : c.name ∈ names <;> simp [applyTo, named]
  | unique names => by_cases alone : names = [c.name] <;> simp [applyTo, alone]

theorem name_foldl_applyTo (c : SchemaColumn) (constraints : List TableConstraint) :
    (constraints.foldl applyTo c).name = c.name := by
  induction constraints generalizing c with
  | nil => rfl
  | cons k constraints ih => rw [List.foldl_cons, ih, name_applyTo]

-- what a constraint adds depends on the name of the column, which all of them keep
theorem key_foldl_applyTo_eq_primary_iff (c : SchemaColumn) (constraints : List TableConstraint) :
    (constraints.foldl applyTo c).key = .primary ↔
      c.key = .primary ∨ ∃ k ∈ constraints, ∃ names, k = .primaryKey names ∧ c.name ∈ names :=
  foldl_iff_of_adds (I := fun d => d.name = c.name) (P := fun d => d.key = .primary)
    (fun d k named => (name_applyTo d k).trans named)
    (fun d k named => named ▸ key_applyTo_eq_primary_iff d k) rfl constraints

theorem key_foldl_applyTo_ne_none_iff (c : SchemaColumn) (constraints : List TableConstraint) :
    (constraints.foldl applyTo c).key ≠ .none ↔ c.key ≠ .none ∨
      ∃ k ∈ constraints, (∃ names, k = .primaryKey names ∧ c.name ∈ names) ∨ k = .unique [c.name] :=
  foldl_iff_of_adds (I := fun d => d.name = c.name) (P := fun d => d.key ≠ .none)
    (fun d k named => (name_applyTo d k).trans named)
    (fun d k named => named ▸ key_applyTo_ne_none_iff d k) rfl constraints

end TableConstraint

/-! ## Columns of a table -/

namespace TableDefinition

/-- A column of the primary key: by an option of its own, or by a constraint that names it as it is spelled. -/
def InPrimaryKey (t : TableDefinition) (c : ColumnDefinition) : Prop :=
  .primaryKey ∈ c.options ∨ ∃ names, .primaryKey names ∈ t.constraints ∧ c.name ∈ names

/-- A column that is a unique key: by an option of its own, or as the only column of a constraint. -/
def IsUniqueKey (t : TableDefinition) (c : ColumnDefinition) : Prop :=
  .unique ∈ c.options ∨ .unique [c.name] ∈ t.constraints

/-- The same columns in the same order with the same constraints, but for the order in which the options of a column
and the constraints are written. -/
structure Reordered (t t' : TableDefinition) : Prop where
  name : t.name = t'.name
  columns : List.Forall₂ (fun c c' => c.name = c'.name ∧ c.type = c'.type ∧ c.options.Perm c'.options)
    t.columns t'.columns
  constraints : t.constraints.Perm t'.constraints

variable {t t' : TableDefinition} {c c' : ColumnDefinition}

/-- What a definition says of a column, options and constraints together. -/
def describeColumn (t : TableDefinition) (c : ColumnDefinition) : SchemaColumn :=
  t.constraints.foldl TableConstraint.applyTo c.describe

theorem describe_eq_map (distinct : (t.columns.map (·.name)).Nodup) :
    t.describe = t.columns.map t.describeColumn := by
  have names : (t.columns.map ColumnDefinition.describe).map (·.name) = t.columns.map (·.name) := by
    simp [Function.comp_def, ColumnDefinition.name_describe]
  rw [describe, TableConstraint.foldl_apply_eq_map (names ▸ distinct), List.map_map]
  rfl

theorem name_describeColumn (t : TableDefinition) (c : ColumnDefinition) : (t.describeColumn c).name = c.name := by
  rw [describeColumn, TableConstraint.name_foldl_applyTo, ColumnDefinition.name_describe]

theorem key_describeColumn_eq_primary_iff : (t.describeColumn c).key = .primary ↔ t.InPrimaryKey c := by
  rw [describeColumn, TableConstraint.key_foldl_applyTo_eq_primary_iff, ColumnDefinition.key_describe_eq_primary_iff,
    ColumnDefinition.name_describe, InPrimaryKey]
  refine or_congr_right ⟨?_, ?_⟩
  · rintro ⟨k, member, names, rfl, named⟩
    exact ⟨names, member, named⟩
  · rintro ⟨names, member, named⟩
    exact ⟨_, member, names, rfl, named⟩

theorem key_describeColumn_ne_none_iff :
    (t.describeColumn c).key ≠ .none ↔ t.InPrimaryKey c ∨ t.IsUniqueKey c := by
  rw [describeColumn, TableConstraint.key_foldl_applyTo_ne_none_iff, ColumnDefinition.key_describe_ne_none_iff,
    ColumnDefinition.name_describe, InPrimaryKey, IsUniqueKey]
  constructor
  · rintro ((own | own) | ⟨k, member, ⟨names, rfl, named⟩ | rfl⟩)
    · exact .inl (.inl own)
    · exact .inr (.inl own)
    · exact .inl (.inr ⟨names, member, named⟩)
    · exact .inr (.inr member)
  · rintro ((own | ⟨names, member, named⟩) | own | member)
    · exact .inl (.inl own)
    · exact .inr ⟨_, member, .inl ⟨names, rfl, named⟩⟩
    · exact .inl (.inr own)
    · exact .inr ⟨_, member, .inr rfl⟩

theorem key_describeColumn_eq_unique_iff :
    (t.describeColumn c).key = .unique ↔ ¬ t.InPrimaryKey c ∧ t.IsUniqueKey c := by
  rw [KeyRole.eq_unique_iff, key_describeColumn_ne_none_iff, ne_eq, key_describeColumn_eq_primary_iff]
  exact ⟨fun ⟨other, role⟩ => ⟨other, role.resolve_left other⟩, fun ⟨other, role⟩ => ⟨other, .inr role⟩⟩

/-- The order of options and constraints does not matter for the role of a column. -/
theorem key_describeColumn_congr (constraints : t.constraints.Perm t'.constraints) (name : c.name = c'.name)
    (options : c.options.Perm c'.options) : (t.describeColumn c).key = (t'.describeColumn c').key := by
  apply KeyRole.eq_of_iff
  · simp only [key_describeColumn_eq_primary_iff, InPrimaryKey, name, options.mem_iff, constraints.mem_iff]
  · simp only [key_describeColumn_ne_none_iff, InPrimaryKey, IsUniqueKey, name, options.mem_iff, constraints.mem_iff]

theorem Reordered.names_eq (h : Reordered t t') : t'.columns.map (·.name) = t.columns.map (·.name) := by
  have same := h.columns
  generalize t.columns = columns at same ⊢
  generalize t'.columns = columns' at same ⊢
  induction same with
  | nil => rfl
  | cons first _ ih => rw [List.map_cons, List.map_cons, ih, first.1]

theorem Reordered.keys_eq (h : Reordered t t') :
    t'.columns.map (fun c => (t'.describeColumn c).key) = t.columns.map (fun c => (t.describeColumn c).key) := by
  have same := h.columns
  generalize t.columns = columns at same ⊢
  generalize t'.columns = columns' at same ⊢
  induction same with
  | nil => rfl
  | cons first _ ih =>
      obtain ⟨name, -, options⟩ := first
      rw [List.map_cons, List.map_cons, ih, key_describeColumn_congr h.constraints name options]

/-- Of the tables that a script defines, the last one of a name is described. -/
theorem ofTables_columnsByTable {before after : List TableDefinition} (last : ∀ u ∈ after, u.name ≠ t.name) :
    Schema.ofTables (Sql.columnsByTable (before ++ t :: after)) t.name = .ok t.describe := by
  have found : (Sql.columnsByTable (before ++ t :: after)).get? t.name = some t.describe := by
    rw [Sql.columnsByTable, KeyMap.get?_ofList, ← List.map_reverse, List.reverse_append, List.reverse_cons,
      List.map_append, List.lookup_append, List.map_append, List.lookup_append]
    have none : (after.reverse.map fun u => (u.name, u.describe)).lookup t.name = none := by
      rw [List.lookup_eq_none_iff]
      intro e member
      obtain ⟨u, later, rfl⟩ := List.mem_map.mp member
      simpa using (last u (List.mem_reverse.mp later)).symm
    rw [none]
    simp
  rw [Schema.ofTables, found]

/-- A table is described by one description for each of its columns, in their order. A column has the role of the
primary key if an option of its own says so or a constraint names it, and otherwise that of a unique key if an option
of its own says so or it is the only column of a constraint. To write options or constraints in another order
changes no role. -/
theorem describe_keys {before after : List TableDefinition} (last : ∀ u ∈ after, u.name ≠ t.name)
    (distinct : (t.columns.map (·.name)).Nodup) :
    ∃ described, Schema.ofTables (Sql.columnsByTable (before ++ t :: after)) t.name = .ok described ∧
      List.Forall₂ (fun c d => d.name = c.name ∧ (d.key = .primary ↔ t.InPrimaryKey c) ∧
        (d.key = .unique ↔ ¬ t.InPrimaryKey c ∧ t.IsUniqueKey c)) t.columns described ∧
      ∀ t', Reordered t t' → ∃ described',
        Schema.ofTables (Sql.columnsByTable (before ++ t' :: after)) t.name = .ok described' ∧
          described'.map (·.key) = described.map (·.key) := by
  refine ⟨t.describe, ofTables_columnsByTable last, ?_, fun t' same => ⟨t'.describe, ?_, ?_⟩⟩
  · rw [describe_eq_map distinct, List.forall₂_map_right_iff]
    refine List.forall₂_same.mpr fun c _ => ⟨name_describeColumn t c, ?_, ?_⟩
    · exact key_describeColumn_eq_primary_iff
    · exact key_describeColumn_eq_unique_iff
  · rw [same.name] at last ⊢
    exact ofTables_columnsByTable last
  · rw [describe_eq_map distinct, describe_eq_map (same.names_eq ▸ distinct), List.map_map, List.map_map]
    exact same.keys_eq

/-- A table with keys of one column and of several, written with the columns and with the table. -/
def orderItems (constraints : List TableConstraint) : TableDefinition :=
  { name := "order_items"
    columns :=
      [⟨"order_id", "BIGINT", [.unique, .notNull]⟩, ⟨"product_id", "BIGINT", []⟩, ⟨"code", "INT", [.unique, .null]⟩,
        ⟨"note", "TEXT", []⟩, ⟨"slug", "VARCHAR(20)", []⟩]
    constraints }

/-- A column of the primary key that is unique as well, a unique key of its own, and a column that only has part in a
unique key, whatever constraint comes first, and although the script defines the table before in another way. -/
theorem describe_keys_orderItems :
    (∀ u ∈ [TableDefinition.mk "orders" [] []], u.name ≠ "order_items") ∧
      ((orderItems []).columns.map (·.name)).Nodup ∧
      ∃ described described',
        Schema.ofTables (Sql.columnsByTable [⟨"order_items", [], []⟩,
          orderItems [.unique ["order_id"], .unique ["slug"], .primaryKey ["order_id", "product_id"],
            .unique ["product_id", "note"]], ⟨"orders", [], []⟩]) "order_items" = .ok described ∧
        described.map (·.key) = [.primary, .primary, .unique, .none, .unique] ∧
        Schema.ofTables (Sql.columnsByTable [⟨"order_items", [], []⟩,
          orderItems [.primaryKey ["order_id", "product_id"], .unique ["product_id", "note"], .unique ["slug"],
            .unique ["order_id"]], ⟨"orders", [], []⟩]) "order_items" = .ok described' ∧
        described'.map (·.key) = described.map (·.key) := by
  have last : ∀ u ∈ [TableDefinition.mk "orders" [] []], u.name ≠ "order_items" := by decide
  have distinct : ((orderItems []).columns.map (·.name)).Nodup := by decide
  obtain ⟨described, found, -, reordered⟩ := @describe_keys
    (orderItems [.unique ["order_id"], .unique ["slug"], .primaryKey ["order_id", "product_id"],
      .unique ["product_id", "note"]]) [⟨"order_items", [], []⟩] [⟨"orders", [], []⟩] last distinct
  obtain ⟨described', found', same⟩ := reordered
    (orderItems [.primaryKey ["order_id", "product_id"], .unique ["product_id", "note"], .unique ["slug"],
      .unique ["order_id"]]) ⟨rfl, List.forall₂_same.mpr fun c _ => ⟨rfl, rfl, .refl _⟩, by decide⟩
  refine ⟨last, distinct, described, described', found, ?_, found', same⟩
  cases (ofTables_columnsByTable last).symm.trans found
  decide

end TableDefinition

end TableMapper
