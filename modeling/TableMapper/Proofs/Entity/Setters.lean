import TableMapper.Proofs.KeyMap
import TableMapper.Proofs.Mapper.RecordKey
import TableMapper.Proofs.Rule.Accepted

/-! # Calls of setters

A setter takes its argument to the type of its field, has the rule of the field check it, and takes what the rule
makes of it to the type again, where it is the argument once more. So what a field holds passes its rule, or is
what the field started with, after any calls in any order. Main statements: `RecordField.accepts_of_accept`,
`Record.settles_call`, `Record.Kept.callAll`.
-/

namespace TableMapper

/-! ## Fields -/

namespace RecordField

variable [PatternEngine]

/-- The rule of a field, if it has one, accepts a value. -/
def Accepts (f : RecordField) (v : Value) : Prop :=
  ∀ rule, f.rule = some rule → ∃ c, Rule.validate rule.kind rule.options v = .ok c

/-- What a field may hold: the value that its type starts with, or one that its rule accepts. -/
def Keeps (f : RecordField) (v : Value) : Prop := v = f.type.default ∨ f.Accepts v

theorem Accepts.exists_check {f : RecordField} {v : Value} (accepts : f.Accepts v) {rule : FieldRule}
    (ruled : f.rule = some rule) (filled : v.isNull = false) : ∃ c, Rule.check rule.kind rule.options v = .ok c := by
  obtain ⟨c, accepted⟩ := accepts rule ruled
  exact ⟨c, Rule.check_of_validate filled accepted⟩

/-- A field takes its argument as its type has it, and in that form its rule accepts it. -/
theorem accepts_of_accept {f : RecordField} (typed : f.type.scalar ≠ .any) {v w : Value} (h : f.accept v = .ok w) :
    f.type.convert v = .ok w ∧ f.Accepts w := by
  obtain ⟨u, converted, passed⟩ := exists_of_bind h
  cases ruled : f.rule with
  | none =>
      simp only [ruled] at passed
      cases passed
      exact ⟨converted, fun _ some => nomatch ruled.symm.trans some⟩
  | some rule =>
      simp only [ruled] at passed
      split at passed
      · cases passed
      · next c accepted =>
        -- the rule has been passed by the value before it is taken to the type again
        rw [FieldType.convert_of_gives typed (FieldType.holds_of_convert converted)
          (Rule.gives_of_validate accepted)] at passed
        split at passed
        · exact (ScalarType.mismatch_ne_ok passed).elim
        · cases passed
          refine ⟨converted, fun rule' some => ?_⟩
          cases ruled.symm.trans some
          exact ⟨c, accepted⟩

omit [PatternEngine] in
/-- A change of the first field of a kind replaces one value, or there is no such field. -/
theorem changeFirst_eq_ok {p : RecordField → Bool} {change : RecordField → Value → Except Error Value}
    {fs : List RecordField} {vs ws : List Value} (typed : Typed fs vs) (h : changeFirst p change fs vs = .ok ws) :
    (∃ i f v w, fs[i]? = some f ∧ vs[i]? = some v ∧ p f = true ∧ change f v = .ok w ∧ ws = vs.set i w) ∨
      (∀ f ∈ fs, p f = false) ∧ ws = vs := by
  induction fs generalizing vs ws with
  | nil => exact .inr ⟨List.forall_mem_nil _, (Except.ok.inj h).symm⟩
  | cons f fs ih =>
      cases vs with
      | nil => exact typed.elim
      | cons v vs =>
          rw [changeFirst] at h
          split at h
          · next own =>
            obtain ⟨w, changed, rfl⟩ := exists_of_map h
            exact .inl ⟨0, f, v, w, rfl, rfl, own, changed, rfl⟩
          · next other =>
            obtain ⟨us, rest, rfl⟩ := exists_of_map h
            obtain ⟨i, g, u, w, field, value, own, changed, rfl⟩ | ⟨none, rfl⟩ := ih typed.2 rest
            · exact .inl ⟨i + 1, g, u, w, field, value, own, changed, rfl⟩
            · exact .inr ⟨List.forall_mem_cons.mpr ⟨by simpa using other, none⟩, rfl⟩

end RecordField

theorem Typed.exists_value {fs : List RecordField} {vs : List Value} (typed : Typed fs vs) {i : Nat} {f : RecordField}
    (field : fs[i]? = some f) : ∃ v, vs[i]? = some v ∧ f.type.holds v = true := by
  induction fs generalizing vs i with
  | nil => cases field
  | cons g fs ih =>
      cases vs with
      | nil => exact typed.elim
      | cons v vs =>
          cases i with
          | zero =>
              cases field
              exact ⟨v, rfl, typed.1⟩
          | succ i => exact ih typed.2 field

/-! ## Calls -/

/-- A call of a setter: the name of a field, and what the field is set to. -/
structure SetterCall where
  name : String
  argument : Value

namespace RecordType

/-- Every field has a type of its own and a setter of its own. -/
structure Settable (t : RecordType) : Prop where
  typed : ∀ f ∈ t.fields, f.type.scalar ≠ .any
  names : (t.fields.map (·.name)).Nodup

theorem Settable.eq_of_name {t : RecordType} (settable : t.Settable) {i j : Nat} {f g : RecordField}
    (first : t.fields[i]? = some f) (second : t.fields[j]? = some g) (same : f.name = g.name) : i = j := by
  have inside : i < (t.fields.map (·.name)).length := by
    rw [List.length_map]
    exact (List.getElem?_eq_some_iff.mp first).1
  refine (List.getElem?_inj inside settable.names).mp ?_
  rw [List.getElem?_map, List.getElem?_map, first, second, Option.map_some, Option.map_some, same]

end RecordType

namespace Record

variable [PatternEngine] {t : RecordType}

/-- What a call answers, and the record after it. A setter assigns its field last of all, so a call that fails
leaves the record as it was. -/
def call (r : Record t) (c : SetterCall) : Except Error Unit × Record t :=
  match r.set c.name c.argument with
  | .ok r' => (.ok (), r')
  | .error e => (.error e, r)

/-- The record after calls, whatever they answer. -/
def callAll (r : Record t) (calls : List SetterCall) : Record t := calls.foldl (fun r c => (r.call c).2) r

/-- A call has changed its own field: it holds the argument as its type has it, which its rule accepts, and every
other field is as it was. -/
structure Assigned (c : SetterCall) (r r' : Record t) : Prop where
  own : ∀ (i : Nat) (f : RecordField), t.fields[i]? = some f → f.name = c.name →
    ∃ w, r'.values[i]? = some w ∧ f.type.convert c.argument = .ok w ∧ f.Accepts w
  others : ∀ (i : Nat) (f : RecordField), t.fields[i]? = some f → f.name ≠ c.name → r'.values[i]? = r.values[i]?

/-- A call that fails changes no field, and one that succeeds no field but its own. -/
def Settles (r : Record t) (c : SetterCall) : Prop :=
  match r.call c with
  | (.error _, r') => r' = r
  | (.ok (), r') => Assigned c r r'

/-- Every field holds what it may hold. -/
def Kept (r : Record t) : Prop :=
  ∀ (i : Nat) (f : RecordField) (v : Value), t.fields[i]? = some f → r.values[i]? = some v → f.Keeps v

theorem changeFirst_of_set {r r' : Record t} {name : String} {v : Value} (h : r.set name v = .ok r') :
    RecordField.changeFirst (fun f => f.name == name) (fun f _ => f.accept v) t.fields r.values = .ok r'.values := by
  unfold set at h
  split at h
  · next done => cases h; exact done
  · cases h

theorem assigned_of_set (settable : t.Settable) {r r' : Record t} {c : SetterCall}
    (h : r.set c.name c.argument = .ok r') : Assigned c r r' := by
  obtain ⟨i, f, v, w, field, value, own, accepted, changed⟩ | ⟨none, changed⟩ :=
    RecordField.changeFirst_eq_ok r.typed (changeFirst_of_set h)
  · have named : f.name = c.name := beq_iff_eq.mp own
    obtain ⟨converted, accepts⟩ :=
      RecordField.accepts_of_accept (settable.typed f (List.mem_of_getElem? field)) accepted
    constructor
    · intro j g other same
      -- names are distinct, so the field that was changed is the only one of its name
      obtain rfl := settable.eq_of_name field other (named.trans same.symm)
      cases field.symm.trans other
      refine ⟨w, ?_, converted, accepts⟩
      rw [changed, List.getElem?_set_self (List.getElem?_eq_some_iff.mp value).1]
    · intro j g other differ
      have apart : i ≠ j := by
        rintro rfl
        cases field.symm.trans other
        exact differ named
      rw [changed, List.getElem?_set_ne apart]
  · constructor
    · intro i f field same
      exact absurd (none f (List.mem_of_getElem? field)) (by simp [same])
    · intro i f field differ
      rw [changed]

theorem settles_call (settable : t.Settable) (r : Record t) (c : SetterCall) : r.Settles c := by
  unfold Settles call
  cases set : r.set c.name c.argument with
  | error e => exact rfl
  | ok r' => exact assigned_of_set settable set

theorem kept_new : (Record.new t).Kept := by
  intro i f v field value
  rw [Record.new, List.getElem?_map, field] at value
  cases value
  exact .inl rfl

theorem Kept.of_assigned {r r' : Record t} (kept : r.Kept) {c : SetterCall} (assigned : Assigned c r r') :
    r'.Kept := by
  intro i f v field value
  by_cases own : f.name = c.name
  · obtain ⟨w, value', -, accepts⟩ := assigned.own i f field own
    cases value.symm.trans value'
    exact .inr accepts
  · exact kept i f v field ((assigned.others i f field own).symm.trans value)

theorem Kept.call (settable : t.Settable) {r : Record t} (kept : r.Kept) (c : SetterCall) : (r.call c).2.Kept := by
  have settles := settles_call settable r c
  unfold Settles at settles
  cases called : r.call c with
  | mk answer r' =>
      rw [called] at settles
      cases answer with
      | error e => exact settles ▸ kept
      | ok done => exact kept.of_assigned settles

theorem Kept.callAll (settable : t.Settable) {r : Record t} (kept : r.Kept) (calls : List SetterCall) :
    (r.callAll calls).Kept := by
  induction calls generalizing r with
  | nil => exact kept
  | cons c calls ih => exact ih (kept.call settable c)

/-- The column of a field shows a value of the field, and one that the field may hold. -/
theorem Kept.exists_cell {r : Record t} (kept : r.Kept) (distinct : t.columns.Nodup) {i : Nat} {f : RecordField}
    (field : t.fields[i]? = some f) :
    ∃ v, r.cells.lookup f.column = some v ∧ f.type.holds v = true ∧ f.Keeps v := by
  obtain ⟨v, value, held⟩ := r.typed.exists_value field
  have column : t.columns[i]? = some f.column := by rw [RecordType.columns, List.getElem?_map, field, Option.map_some]
  have names : (r.cells.map (·.1)).Nodup := (columns_values r).symm ▸ distinct
  have member : (f.column, v) ∈ r.cells :=
    List.mem_of_getElem? (List.getElem?_zip_eq_some.mpr ⟨column, value⟩)
  exact ⟨v, (lookup_eq_some_iff_mem names).mpr member, held, kept i f v field value⟩

end Record

end TableMapper
