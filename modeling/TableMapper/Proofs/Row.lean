import TableMapper.Entity.Record
import TableMapper.Proofs.Outcome

/-! # Rows and their columns

A column is found by its name, the first of that name if there are several. The part of a row under a start has
the columns of the row under shorter names, also the part of a part: `under_laws`.

What is read from a row depends on the values that it has in some columns, and not on its other columns nor on
their order. Records are read in that way: two rows that agree in the columns of a table are the same record,
or fail alike, and more columns behind those of a record leave it the same.
-/

namespace TableMapper

namespace Row

/-- The rows have the same value, or none, in each of some columns. -/
def AgreeOn (columns : List String) (r r' : Row) : Prop := ∀ c ∈ columns, r.find? c = r'.find? c

instance (columns : List String) (r r' : Row) : Decidable (AgreeOn columns r r') :=
  inferInstanceAs (Decidable (∀ c ∈ columns, _))

theorem agreeOn_append {columns others : List String} {r r' : Row} :
    AgreeOn (columns ++ others) r r' ↔ AgreeOn columns r r' ∧ AgreeOn others r r' :=
  List.forall_mem_append

/-- The row that has given values in some columns. -/
def tabulate (columns : List String) (value : String → Option Value) : Row :=
  ⟨columns.filterMap fun c => (value c).map (c, ·)⟩

theorem find?_tabulate (columns : List String) (value : String → Option Value) (c : String) :
    (tabulate columns value).find? c = if c ∈ columns then value c else none := by
  change (columns.filterMap fun c => (value c).map (c, ·)).lookup c = _
  induction columns with
  | nil => rfl
  | cons name columns ih =>
      cases found : value name with
      | none =>
          rw [List.filterMap_cons_none (by rw [found]; rfl), ih]
          by_cases same : c = name
          · simp [same, found]
          · simp [same]
      | some v =>
          rw [List.filterMap_cons_some (by rw [found]; rfl), List.lookup_cons, ih]
          by_cases same : c = name
          · simp [same, found]
          · simp [same, beq_eq_false_iff_ne.mpr same]

/-- Columns that are put behind one another stay as they are, also those that share a name. -/
theorem ofList_eq (cells : List (String × Value)) : ofList cells = ⟨cells⟩ := by
  have behind : ∀ (cells : List (String × Value)) (r : Row),
      cells.foldl (fun r cell => r.push cell.1 cell.2) r = ⟨r.cells ++ cells⟩ := by
    intro cells
    induction cells with
    | nil => exact fun r => by rw [List.foldl_nil, List.append_nil]
    | cons cell cells ih =>
        intro r
        rw [List.foldl_cons, ih]
        simp only [push, List.append_assoc, List.singleton_append]
  exact behind cells empty

/-- The value in the first of the columns with a name. -/
def FirstIs (r : Row) (column : String) (v : Value) : Prop :=
  ∃ before after, r.cells = before ++ (column, v) :: after ∧ ∀ cell ∈ before, cell.1 ≠ column

/-- No column has the name. -/
def Lacks (r : Row) (column : String) : Prop := ∀ cell ∈ r.cells, cell.1 ≠ column

theorem find?_eq_some_iff {r : Row} {column : String} {v : Value} :
    r.find? column = some v ↔ r.FirstIs column v := by
  rw [find?, List.lookup_eq_some_iff]
  simp only [FirstIs, bne_iff_ne, ne_comm]

theorem find?_eq_none_iff {r : Row} {column : String} : r.find? column = none ↔ r.Lacks column := by
  rw [find?, List.lookup_eq_none_iff]
  simp only [Lacks, bne_iff_ne, ne_comm]

/-! ## Parts of rows -/

/-- A column of the part of a row under a start is one of the row, with the start before its name. -/
theorem find?_under (r : Row) (start c : String) : (r.under start).find? c = r.find? (start ++ c) := by
  obtain ⟨cells⟩ := r
  change (cells.filterMap fun cell => (Text.dropPrefix? start cell.1).map (·, cell.2)).lookup c =
    cells.lookup (start ++ c)
  induction cells with
  | nil => rfl
  | cons cell cells ih =>
      obtain ⟨column, v⟩ := cell
      cases drops : Text.dropPrefix? start column with
      | none =>
          have other : (start ++ c == column) = false := by
            refine beq_false_of_ne fun same => ?_
            rw [Text.dropPrefix?_eq_some_iff.mpr same.symm] at drops
            cases drops
          rw [List.filterMap_cons_none (by rw [drops]; rfl), ih, List.lookup_cons, other]
      | some rest =>
          obtain rfl := Text.dropPrefix?_eq_some_iff.mp drops
          have names : (start ++ c == start ++ rest) = (c == rest) := by
            rw [Bool.eq_iff_iff, beq_iff_eq, beq_iff_eq, String.append_right_inj]
          rw [List.filterMap_cons_some (by rw [drops]; rfl), List.lookup_cons, List.lookup_cons, ih, names]

theorem under_eq_empty_iff {r : Row} {start : String} :
    r.under start = .empty ↔ ∀ c v, (start ++ c, v) ∉ r.cells := by
  rw [under, empty, Row.mk.injEq, List.filterMap_eq_nil_iff]
  constructor
  · intro none c v member
    have lost := Option.map_eq_none_iff.mp (none _ member)
    rw [Text.dropPrefix?_eq_some_iff.mpr rfl] at lost
    cases lost
  · rintro apart ⟨column, v⟩ member
    refine Option.map_eq_none_iff.mpr (Option.eq_none_iff_forall_ne_some.mpr fun c drops => ?_)
    exact apart c v (Text.dropPrefix?_eq_some_iff.mp drops ▸ member)

/-- Cells named behind the start of a part, and others that are not of it. -/
theorem under_append_of_apart {start : String} {others : List (String × Value)} {r : Row}
    (apart : ∀ c v, (start ++ c, v) ∉ others) :
    (⟨others ++ r.cells.map fun (c, v) => (start ++ c, v)⟩ : Row).under start = r := by
  have none : (⟨others⟩ : Row).under start = .empty := under_eq_empty_iff.mpr apart
  have all : ∀ cell : String × Value,
      (Text.dropPrefix? start (start ++ cell.1)).map (·, cell.2) = some cell := by
    intro cell
    rw [Text.dropPrefix?_eq_some_iff.mpr rfl]
    rfl
  rw [under, empty, Row.mk.injEq] at none
  rw [under, List.filterMap_append, none, List.nil_append, List.filterMap_map]
  exact congrArg Row.mk ((List.filterMap_congr fun cell _ => all cell).trans List.filterMap_some)

/-- The part under one start of the part under another is the part under both, one behind the other. -/
theorem under_under (r : Row) (p q : String) : (r.under p).under q = r.under (p ++ q) := by
  have both : ∀ cell : String × Value,
      ((Text.dropPrefix? p cell.1).map (·, cell.2)).bind
          (fun rest => (Text.dropPrefix? q rest.1).map (·, rest.2)) =
        (Text.dropPrefix? (p ++ q) cell.1).map (·, cell.2) := by
    intro cell
    rw [Text.dropPrefix?_append]
    cases Text.dropPrefix? p cell.1 <;> rfl
  rw [under, under, under, List.filterMap_filterMap]
  exact congrArg Row.mk (List.filterMap_congr fun cell _ => both cell)

/-- Parts of parts are parts under longer starts. A part finds in a column what the row has in the first of its
columns with the start before that name, or both say that the column they look for is missing. Collecting the
columns of a row gives the row back. -/
theorem under_laws (r : Row) (p q c : String) :
    (r.under p).under q = r.under (p ++ q) ∧
      ((∃ v, r.FirstIs (p ++ c) v ∧ r.value (p ++ c) = .ok v ∧ (r.under p).value c = .ok v) ∨
        (r.Lacks (p ++ c) ∧ r.value (p ++ c) = .error (.columnNotFound (p ++ c)) ∧
          (r.under p).value c = .error (.columnNotFound c))) ∧
      ofList r.toList = r := by
  refine ⟨under_under r p q, ?_, ofList_eq r.toList⟩
  rw [value, value, find?_under]
  cases found : r.find? (p ++ c) with
  | some v => exact .inl ⟨v, find?_eq_some_iff.mp found, rfl, rfl⟩
  | none => exact .inr ⟨find?_eq_none_iff.mp found, rfl, rfl⟩

end Row

/-! ## Records read from rows -/

/-- What is read from a row depends on the columns that are read and no others. -/
def Decodable.ReadsOwn (α : Type) [Decodable α] : Prop :=
  ∀ r r' : Row, r.AgreeOn (columns α) r' → (ofRow r : Except Error α) = ofRow r'

theorem RecordField.readAll_congr {fs : List RecordField} {r r' : Row}
    (agree : r.AgreeOn (fs.map (·.column)) r') : readAll fs r = readAll fs r' := by
  induction fs with
  | nil => rfl
  | cons f fs ih =>
      rw [Row.AgreeOn, List.map_cons, List.forall_mem_cons] at agree
      have first : r.get f.column f.type = r'.get f.column f.type := by
        rw [Row.get, Row.get, Row.value, Row.value, agree.1]
      rw [readAll, readAll, first, ih agree.2]

theorem Record.ofRow_congr {t : RecordType} {r r' : Row}
    (same : RecordField.readAll t.fields r = RecordField.readAll t.fields r') : ofRow t r = ofRow t r' := by
  unfold ofRow
  split <;> split <;> simp_all

/-- A field is only read from a column that the row has. -/
theorem RecordField.exists_find?_of_readAll {fs : List RecordField} {r : Row} {vs : List Value}
    (read : readAll fs r = .ok vs) : ∀ f ∈ fs, ∃ v, r.find? f.column = some v := by
  induction fs generalizing vs with
  | nil => exact fun _ member => absurd member List.not_mem_nil
  | cons f fs ih =>
      rw [readAll] at read
      obtain ⟨v, first, read⟩ := exists_of_bind read
      obtain ⟨_, others, -⟩ := exists_of_bind read
      refine List.forall_mem_cons.mpr ⟨?_, ih others⟩
      obtain ⟨w, found, -⟩ := exists_of_bind first
      cases look : r.find? f.column with
      | none =>
          rw [Row.value, look] at found
          cases found
      | some w => exact ⟨w, rfl⟩

theorem Record.readAll_of_ofRow {t : RecordType} {r : Row} {e : Record t} (read : ofRow t r = .ok e) :
    RecordField.readAll t.fields r = .ok e.values := by
  unfold ofRow at read
  split at read
  · next vs values =>
    cases read
    exact values
  · cases read

theorem Record.exists_find?_of_ofRow {t : RecordType} {r : Row} {e : Record t} (read : ofRow t r = .ok e) :
    ∀ c ∈ t.columns, ∃ v, r.find? c = some v :=
  List.forall_mem_map.mpr (RecordField.exists_find?_of_readAll (readAll_of_ofRow read))

/-- More cells behind those that a record was read from leave it the same. -/
theorem Record.ofRow_append {t : RecordType} {r : Row} {e : Record t} (read : ofRow t r = .ok e)
    (more : List (String × Value)) : ofRow t ⟨r.cells ++ more⟩ = .ok e := by
  have agree : r.AgreeOn t.columns ⟨r.cells ++ more⟩ := by
    intro c member
    obtain ⟨v, found⟩ := exists_find?_of_ofRow read c member
    have behind : (r.cells ++ more).lookup c = some v := by
      rw [List.lookup_append]
      exact Option.or_eq_some_iff.mpr (.inl found)
    exact found.trans behind.symm
  rw [← read]
  exact (ofRow_congr (RecordField.readAll_congr agree)).symm

theorem Record.readsOwn (t : RecordType) : Decodable.ReadsOwn (Record t) :=
  fun _ _ agree => ofRow_congr (RecordField.readAll_congr agree)

end TableMapper
