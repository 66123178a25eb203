import Mathlib.Data.List.Nodup
import TableMapper.Entity.Record
import TableMapper.Proofs.Mapper.Statements

/-! # Keys of records

The primary key of a table as a value of its own: one value for each field of the key, of its type. A
record has such a key, and its cells are the key values that statements and cache keys are made from.
-/

namespace TableMapper

namespace RecordType

/-- The fields of the primary key. -/
def keyFields (t : RecordType) : List RecordField := t.fields.filter (·.primary)

/-- A primary key: a value of the right type for each field of it. -/
@[ext]
structure Key (t : RecordType) where
  values : List Value
  typed : Typed t.keyFields values

/-- The columns of a key with their values. -/
def Key.cells {t : RecordType} (k : Key t) : List (String × Value) := t.primaryKey.zip k.values

end RecordType

theorem Typed.length_eq {fs : List RecordField} {vs : List Value} (h : Typed fs vs) :
    vs.length = fs.length := by
  induction fs generalizing vs with
  | nil =>
      cases vs with
      | nil => rfl
      | cons v vs => exact h.elim
  | cons f fs ih =>
      cases vs with
      | nil => exact h.elim
      | cons v vs => rw [List.length_cons, List.length_cons, ih h.2]

namespace RecordField

/-- The values of the primary key among those of all fields. -/
def keyPart : List RecordField → List Value → List Value
  | f :: fs, v :: vs => if f.primary then v :: keyPart fs vs else keyPart fs vs
  | _, _ => []

theorem typed_keyPart {fs : List RecordField} {vs : List Value} (h : Typed fs vs) :
    Typed (fs.filter (·.primary)) (keyPart fs vs) := by
  induction fs generalizing vs with
  | nil => exact trivial
  | cons f fs ih =>
      cases vs with
      | nil => exact h.elim
      | cons v vs =>
          cases primary : f.primary with
          | true =>
              rw [List.filter_cons_of_pos primary, keyPart, primary, if_pos rfl]
              exact ⟨h.1, ih h.2⟩
          | false =>
              rw [List.filter_cons_of_neg (by simp [primary]), keyPart, primary, if_neg Bool.false_ne_true]
              exact ih h.2

/-- Picking the columns of the key from all cells leaves the columns of the key with its values. -/
theorem filter_zip_columns {names : List String} {fs : List RecordField} {vs : List Value}
    (key : ∀ f ∈ fs, names.contains f.column = f.primary) :
    ((fs.map (·.column)).zip vs).filter (fun (column, _) => names.contains column) =
      ((fs.filter (·.primary)).map (·.column)).zip (keyPart fs vs) := by
  induction fs generalizing vs with
  | nil => rfl
  | cons f fs ih =>
      rw [List.forall_mem_cons] at key
      cases vs with
      | nil => rw [List.zip_nil_right, keyPart, List.zip_nil_right, List.filter_nil]; simp
      | cons v vs =>
          rw [List.map_cons, List.zip_cons_cons]
          cases primary : f.primary with
          | true =>
              have kept : names.contains f.column = true := key.1.trans primary
              rw [List.filter_cons_of_pos (by simpa using kept), List.filter_cons_of_pos primary,
                List.map_cons, keyPart, primary, if_pos rfl, List.zip_cons_cons, ih key.2]
          | false =>
              have dropped : names.contains f.column = false := key.1.trans primary
              rw [List.filter_cons_of_neg (by simpa using dropped), List.filter_cons_of_neg (by simp [primary]),
                keyPart, primary, if_neg Bool.false_ne_true, ih key.2]

end RecordField

namespace RecordType

variable {t : RecordType}

theorem Key.columns_cells (k : Key t) : k.cells.map (·.1) = t.primaryKey := by
  refine List.map_fst_zip (Nat.le_of_eq ?_)
  rw [k.typed.length_eq, primaryKey, List.length_map, keyFields]

theorem Key.values_cells (k : Key t) : k.cells.map (·.2) = k.values := by
  refine List.map_snd_zip (Nat.le_of_eq ?_)
  rw [k.typed.length_eq, primaryKey, List.length_map, keyFields]

theorem Key.cells_injective : Function.Injective (Key.cells : Key t → List (String × Value)) :=
  fun k k' same => Key.ext (by rw [← k.values_cells, same, k'.values_cells])

/-- With distinct columns, a column is one of the key exactly when its field is. -/
theorem contains_primaryKey (distinct : t.columns.Nodup) {f : RecordField} (member : f ∈ t.fields) :
    t.primaryKey.contains f.column = f.primary := by
  cases primary : f.primary with
  | true =>
      exact List.contains_iff_mem.2 (List.mem_map_of_mem (List.mem_filter.2 ⟨member, primary⟩))
  | false =>
      refine Bool.eq_false_iff.2 fun contained => ?_
      obtain ⟨g, keyed, same⟩ := List.mem_map.1 (List.contains_iff_mem.1 contained)
      obtain ⟨other, keyed⟩ := List.mem_filter.1 keyed
      have equal : g = f := List.inj_on_of_nodup_map distinct other member same
      rw [equal, primary] at keyed
      exact Bool.false_ne_true keyed

end RecordType

namespace Record

variable {t : RecordType}

def key (r : Record t) : t.Key := ⟨RecordField.keyPart t.fields r.values, RecordField.typed_keyPart r.typed⟩

theorem columns_values (r : Record t) : (Entity.values r).map (·.1) = t.columns := by
  refine List.map_fst_zip (Nat.le_of_eq ?_)
  rw [r.typed.length_eq, RecordType.columns, List.length_map]

/-- The key values of a record are the cells of its key. -/
theorem keyValues_eq (distinct : t.columns.Nodup) (r : Record t) : Entity.keyValues r = r.key.cells :=
  RecordField.filter_zip_columns fun _ member => RecordType.contains_primaryKey distinct member

end Record

/-! ## Keys that the database numbers -/

/-- The first field alone is the primary key, and the database numbers it. -/
def RecordType.Numbered (t : RecordType) : Prop :=
  ∃ f fs kind, t.fields = f :: fs ∧ f.primary = true ∧ f.autoIncrement = true ∧
    f.type = ⟨.integer kind, false⟩ ∧ ∀ g ∈ fs, g.primary = false

theorem RecordField.keyPart_of_not_primary {fs : List RecordField} {vs : List Value}
    (h : ∀ f ∈ fs, f.primary = false) : keyPart fs vs = [] := by
  induction fs generalizing vs with
  | nil => cases vs <;> rfl
  | cons f fs ih =>
      rw [List.forall_mem_cons] at h
      cases vs with
      | nil => rfl
      | cons v vs => rw [keyPart, h.1, if_neg Bool.false_ne_true, ih h.2]

/-- A record that takes over the number of its row has the key of that row. -/
theorem Record.key_setGeneratedId {t : RecordType} (numbered : t.Numbered) (r : Record t) {k : t.Key}
    {n : Integer} {id : Nat} (key : k.values = [.integer n]) (same : n.val = id) :
    (r.setGeneratedId id).key = k := by
  obtain ⟨f, fs, kind, fields, primary, auto, type, others⟩ := numbered
  have kinds : n.kind = kind := by
    have typed := k.typed
    rw [key, RecordType.keyFields, fields, List.filter_cons_of_pos primary] at typed
    simpa [type, FieldType.holds, ScalarType.holds, Value.isNull] using typed.1
  have taken : ∀ old, f.withGeneratedId id old = .integer n := by
    intro old
    rw [RecordField.withGeneratedId, type]
    simp only [← kinds, ← same, Integer.ofInt?_val]
  obtain ⟨v, vs, values⟩ : ∃ v vs, r.values = v :: vs := by
    have typed := r.typed
    rw [fields] at typed
    cases values : r.values with
    | nil => exact (values ▸ typed : Typed (f :: fs) []).elim
    | cons v vs => exact ⟨v, vs, rfl⟩
  have changed : RecordField.changeFirst (fun f => f.autoIncrement)
      (fun f old => .ok (f.withGeneratedId id old)) t.fields r.values = .ok (.integer n :: vs) := by
    rw [fields, values, RecordField.changeFirst, if_pos auto, taken]
    rfl
  have result : (r.setGeneratedId id).values = .integer n :: vs := by
    unfold Record.setGeneratedId
    split
    · next ws done => exact Except.ok.inj (done.symm.trans changed)
    · next e failed => cases failed.symm.trans changed
  refine RecordType.Key.ext ?_
  change RecordField.keyPart t.fields (r.setGeneratedId id).values = k.values
  rw [result, key, fields, RecordField.keyPart, if_pos primary, RecordField.keyPart_of_not_primary others]

end TableMapper
