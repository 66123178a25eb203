import TableMapper.Column.Type
import TableMapper.Pattern.Native
import TableMapper.Proofs.Cache.Key
import TableMapper.Proofs.Outcome
import TableMapper.Proofs.Wire.RoundTrip

/-! # Accepted values

A field is set through its rule: the rule gives the value a form of its own, and the type of the field takes that
form back. Rules for truth values and integers turn text into numbers, which columns of text and of bytes do not
take: such a field cannot be set. All other forms are taken back to the value itself. Main statement:
`convert_validated`.
-/

namespace TableMapper

/-! ## Values of a type -/

/-- A type takes the values that it holds as they are. -/
theorem ScalarType.convert_of_holds {t : ScalarType} {v : Value} (h : t.holds v = true) : t.convert v = .ok v := by
  unfold holds at h
  split at h
  case h_2 kind n =>
    have kinds : n.kind = kind := beq_iff_eq.mp h
    rw [convert, convertInteger, ← kinds, Integer.ofInt?_val]
  case h_13 => cases h
  all_goals rfl

theorem FieldType.convert_of_holds {t : FieldType} {v : Value} (h : t.holds v = true) : t.convert v = .ok v := by
  unfold convert
  split
  · next none =>
    cases v with
    | null => rfl
    | _ => simp [Value.isNull] at none
  · next some =>
    have held : t.scalar.holds v = true := by simpa [holds, some] using h
    exact ScalarType.convert_of_holds held

/-- A number that stands for a truth value comes back from it. -/
theorem ScalarType.convertInteger_bool {n : Integer} {b : Bool} (small : n.val = if b then 1 else 0) :
    convertInteger n.kind (.bool b) = .ok (.integer n) := by
  obtain ⟨kind, val, fits⟩ := n
  cases b <;> cases small <;> rfl

/-- What carries text is of a type of text or of bytes, which take the text back. -/
theorem ScalarType.convert_text {t : ScalarType} {v : Value} {s : String} (h : t.holds v = true)
    (typed : t ≠ .any) (text : v.text? = some s) : (t = .text ∨ t = .bytes) ∧ t.convert (.text s) = .ok v := by
  cases v with
  | text s' =>
      cases text
      cases t with
      | text => exact ⟨.inl rfl, rfl⟩
      | any => exact (typed rfl).elim
      | _ => cases h
  | bytes b =>
      obtain ⟨w, received, taken⟩ := WireValue.convertBytes_toValue b
      have read : String.fromUTF8? b = some s := text
      rw [WireValue.toValue, read] at received
      cases received
      cases t with
      | bytes => exact ⟨.inr rfl, taken⟩
      | any => exact (typed rfl).elim
      | _ => cases h
  | _ => cases text

/-! ## What rules give back -/

namespace Rule

/-- What a rule of a kind makes of a value that it accepts. -/
inductive Gives : RuleKind → Value → Value → Prop
  | null (kind : RuleKind) : Gives kind .null .null
  | bool (b : Bool) : Gives .boolean (.bool b) (.bool b)
  | digit {n : Integer} {b : Bool} (small : n.val = if b then 1 else 0) : Gives .boolean (.integer n) (.bool b)
  | word {v : Value} {s : String} (b : Bool) (text : v.text? = some s) : Gives .boolean v (.bool b)
  | integer (n : Integer) : Gives .integer (.integer n) (.integer n)
  | number {v : Value} {s : String} (n : Integer) (text : v.text? = some s) : Gives .integer v (.integer n)
  | domain {v : Value} {s : String} (text : v.text? = some s) : Gives .domain v (.text s)
  | email {v : Value} {s : String} (text : v.text? = some s) : Gives .email v (.text s)
  | matched (v : Value) : Gives .regexp v v

variable {o : RuleOptions} {v c : Value}

theorem gives_of_checkBoolean (h : checkBoolean v = .ok c) : Gives .boolean v c := by
  unfold checkBoolean at h
  split at h
  · cases h
    exact .bool _
  · split at h
    · next n int =>
      cases v with
      | integer i =>
          cases int
          split at h
          · next zero => cases h; exact .digit zero
          · split at h
            · next one => cases h; exact .digit one
            · cases h
      | _ => cases int
    · split at h
      · next s text =>
        split at h
        · cases h
          exact .word _ text
        · cases h
      · cases h

theorem gives_of_checkInteger (h : checkInteger o v = .ok c) : Gives .integer v c := by
  unfold checkInteger at h
  split at h
  · cases h
  · next n read =>
    split at h
    · cases h
    · cases h
      unfold integerOf at read
      split at read
      · cases read
        exact .integer _
      · split at read
        · cases read
        · next s text => exact .number n text

theorem gives_of_checkDomain (h : checkDomain o v = .ok c) : Gives .domain v c := by
  unfold checkDomain at h
  split at h
  · cases h
  · next s text =>
    split at h
    · cases h
    · cases h
      exact .domain text

theorem gives_of_checkEmail (h : checkEmail v = .ok c) : Gives .email v c := by
  unfold checkEmail at h
  split at h
  · cases h
  · next s text =>
    split at h
    · cases h
    · dsimp only at h
      split_ifs at h
      split at h
      · cases h
      · cases h
        exact .email text

theorem gives_of_checkRegexp [PatternEngine] (h : checkRegexp o v = .ok c) : Gives .regexp v c := by
  unfold checkRegexp at h
  split at h
  · cases h
  · split at h
    · cases h
    · split at h
      · cases h
      · split_ifs at h
        cases h
        exact .matched v

/-- The engine takes a pattern and finds it in a text. -/
def Finds [PatternEngine] (source s : String) : Prop :=
  ∃ found, PatternEngine.compile source = .ok found ∧ found s = true

/-- A pattern rule accepts texts that the engine finds its pattern in. -/
theorem finds_of_check [PatternEngine] {source s : String} (own : o.pattern = some source)
    (h : check .regexp o (.text s) = .ok c) : Finds source s := by
  have passed : checkRegexp o (.text s) = .ok c := ok_of_mapError h
  simp only [checkRegexp, own, matchText?, Value.keyText] at passed
  split at passed
  · cases passed
  · next found compiled =>
    split at passed
    · next here => exact ⟨found, compiled, here⟩
    · cases passed

theorem check_of_validate [PatternEngine] {kind : RuleKind} (filled : v.isNull = false) (h : validate kind o v = .ok c) :
    check kind o v = .ok c := by
  rwa [validate, filled, if_neg Bool.false_ne_true] at h

theorem gives_of_validate [PatternEngine] {kind : RuleKind} (h : validate kind o v = .ok c) : Gives kind v c := by
  cases none : v.isNull with
  | true =>
      rw [validate, if_pos none] at h
      split at h
      · cases h
        cases v with
        | null => exact .null kind
        | _ => cases none
      · cases h
  | false =>
      have passed := ok_of_mapError (check_of_validate none h)
      cases kind with
      | boolean => exact gives_of_checkBoolean passed
      | integer => exact gives_of_checkInteger passed
      | domain => exact gives_of_checkDomain passed
      | email => exact gives_of_checkEmail passed
      | regexp => exact gives_of_checkRegexp passed

end Rule

/-! ## What fields take -/

namespace FieldType

variable {t : FieldType} {kind : RuleKind} {v c : Value}

/-- Whether rules of a kind turn the text of a column into something that is not text. -/
def Turned (t : FieldType) (kind : RuleKind) : Prop :=
  (kind = .boolean ∨ kind = .integer) ∧ (t.scalar = .text ∨ t.scalar = .bytes)

instance (t : FieldType) (kind : RuleKind) : Decidable (t.Turned kind) := inferInstanceAs (Decidable (_ ∧ _))

theorem scalar_holds (h : t.holds v = true) (filled : v ≠ .null) : t.scalar.holds v = true := by
  have some : v.isNull = false := by
    cases v with
    | null => exact (filled rfl).elim
    | _ => rfl
  simpa [holds, some] using h

theorem convert_of_ne_null (filled : c ≠ .null) : t.convert c = t.scalar.convert c := by
  cases c with
  | null => exact (filled rfl).elim
  | _ => simp [convert, Value.isNull]

theorem not_turned_of_bool {b : Bool} (h : t.holds (.bool b) = true) : ¬ t.Turned kind := by
  rintro ⟨-, scalar | scalar⟩ <;> simp [holds, scalar, ScalarType.holds, Value.isNull] at h

theorem not_turned_of_integer {n : Integer} (h : t.holds (.integer n) = true) : ¬ t.Turned kind := by
  rintro ⟨-, scalar | scalar⟩ <;> simp [holds, scalar, ScalarType.holds, Value.isNull] at h

/-- A form that a rule gives is taken back to the value, or it is no text where the column holds nothing else. -/
theorem convert_of_gives (typed : t.scalar ≠ .any) (h : t.holds v = true) (gives : Rule.Gives kind v c) :
    t.convert c = if t.Turned kind ∧ v ≠ .null then t.scalar.mismatch c else .ok v := by
  -- the column of a value that a rule read as text is of text or of bytes
  have carried {s : String} (text : v.text? = some s) : v ≠ .null ∧ (t.scalar = .text ∨ t.scalar = .bytes) ∧
      t.convert (.text s) = .ok v := by
    have filled : v ≠ .null := by
      rintro rfl
      cases text
    obtain ⟨scalar, taken⟩ := ScalarType.convert_text (scalar_holds h filled) typed text
    exact ⟨filled, scalar, (convert_of_ne_null Value.noConfusion).trans taken⟩
  cases gives with
  | null => rw [convert_of_holds h, if_neg fun turned => turned.2 rfl]
  | bool => rw [convert_of_holds h, if_neg fun turned => not_turned_of_bool h turned.1]
  | integer => rw [convert_of_holds h, if_neg fun turned => not_turned_of_integer h turned.1]
  | matched => rw [convert_of_holds h, if_neg fun turned => by simp [Turned] at turned]
  | @digit n b small =>
      rw [if_neg fun turned => not_turned_of_integer h turned.1, convert_of_ne_null Value.noConfusion]
      have held := scalar_holds h Value.noConfusion
      cases scalar : t.scalar with
      | integer kind =>
          have kinds : n.kind = kind := by simpa [scalar, ScalarType.holds] using held
          exact kinds ▸ ScalarType.convertInteger_bool small
      | any => exact (typed scalar).elim
      | _ => rw [scalar] at held; cases held
  | word b text =>
      obtain ⟨filled, scalar, -⟩ := carried text
      rw [if_pos ⟨⟨.inl rfl, scalar⟩, filled⟩, convert_of_ne_null Value.noConfusion]
      obtain scalar | scalar := scalar <;> rw [scalar] <;> rfl
  | number n text =>
      obtain ⟨filled, scalar, -⟩ := carried text
      rw [if_pos ⟨⟨.inr rfl, scalar⟩, filled⟩, convert_of_ne_null Value.noConfusion]
      obtain scalar | scalar := scalar <;> rw [scalar] <;> rfl
  | domain text => rw [(carried text).2.2, if_neg fun turned => by simp [Turned] at turned]
  | email text => rw [(carried text).2.2, if_neg fun turned => by simp [Turned] at turned]

end FieldType

/-- A column takes back what a rule makes of a value, and as that value. Only text and bytes that a rule turns
into a truth value or a number are not taken. -/
theorem ColumnType.convert_validated [PatternEngine] {type : ColumnType} {nullable : Bool} {kind : RuleKind} {o : RuleOptions}
    {v c : Value} (h : (type.fieldType nullable).holds v = true) (accepted : Rule.validate kind o v = .ok c) :
    (type.fieldType nullable).convert c =
      if (type.fieldType nullable).Turned kind ∧ v ≠ .null then type.scalar.mismatch c else .ok v :=
  FieldType.convert_of_gives (CodeTable.scalar_ne_any type) h (Rule.gives_of_validate accepted)

open scoped Pattern in
/-- Bytes that a rule reads as a domain are taken back as bytes. -/
theorem ColumnType.convert_validated_domain :
    let type : ColumnType := { kind := .varBinary, width := 40 }
    let v : Value := .bytes "db.example.".toUTF8
    (type.fieldType true).holds v = true ∧
      Rule.validate .domain { hostname := true } v = .ok (.text "db.example.") ∧
      (type.fieldType true).convert (.text "db.example.") = .ok v := by
  have accepted : Rule.validate .domain { hostname := true } (.bytes "db.example.".toUTF8) =
      .ok (.text "db.example.") := by decide +kernel
  exact ⟨rfl, accepted, convert_validated rfl accepted⟩

open scoped Pattern in
/-- The digits of a number are accepted for a column of text by the rule for integers, and then not taken. -/
theorem ColumnType.not_convert_validated :
    ¬ ∀ (type : ColumnType) (nullable : Bool) (kind : RuleKind) (o : RuleOptions) (v c : Value),
      (type.fieldType nullable).holds v = true → Rule.validate kind o v = .ok c →
        ∃ w, (type.fieldType nullable).convert c = .ok w := by
  intro all
  have accepted : Rule.validate .integer {} (.text "42") = .ok (.integer ⟨.int64, 42, by decide⟩) := by
    decide +kernel
  obtain ⟨w, taken⟩ := all { kind := .varChar, width := 20 } false .integer {} (.text "42") _ rfl accepted
  cases taken

end TableMapper
