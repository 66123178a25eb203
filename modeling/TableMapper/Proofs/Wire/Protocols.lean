import TableMapper.FieldType
import TableMapper.Proofs.Number.Numerals

/-! # Integers received as text

Over one of its protocols the database returns integers as numbers, over the other as their text. Fields of
integers take both alike. Fields of truth values do not: every number is taken, true unless it is zero, but of the
texts only those of zero and one. Main statement: `protocols_agree_iff`.
-/

namespace TableMapper

/-- Two outcomes are the same: both are a failure, or both are one and the same success. -/
def SameOutcome {ε α : Type} (x y : Except ε α) : Prop :=
  (∃ e e', x = .error e ∧ y = .error e') ∨ ∃ a, x = .ok a ∧ y = .ok a

namespace ScalarType

/-- The types that hold a number of 64 bits from the database: integers and truth values. -/
inductive Whole : ScalarType → Prop
  | bool : Whole .bool
  | integer (kind : IntKind) : Whole (.integer kind)

/-! ## Integers -/

theorem convertInteger_of_fits {kind : IntKind} {n : Integer} (fits : kind.Fits n.val) :
    convertInteger kind (.integer n) = .ok (.integer ⟨kind, n.val, fits⟩) := by
  rw [convertInteger, Integer.ofInt?_of_fits fits]

theorem convertInteger_of_not_fits {kind : IntKind} {n : Integer} (outside : ¬ kind.Fits n.val) :
    ∃ e, convertInteger kind (.integer n) = .error e := by
  exact ⟨_, by rw [convertInteger, Integer.ofInt?_of_not_fits outside]; rfl⟩

/-- A kind of integer takes a number and the text of the number alike. -/
theorem agree_convertInteger (kind : IntKind) (n : Integer) :
    SameOutcome (convertInteger kind (.text n.text)) (convertInteger kind (.integer n)) := by
  have read := Integer.read?_text kind n
  by_cases fits : kind.Fits n.val
  · refine .inr ⟨_, ?_, convertInteger_of_fits fits⟩
    rw [convertInteger, Integer.trim_text, read, Integer.ofInt?_of_fits fits]
  · obtain ⟨e, failed⟩ := convertInteger_of_not_fits fits
    have unread : convertInteger kind (.text n.text) = outOfRange (.integer kind) (Text.Quoted.encode n.text) := by
      rw [convertInteger, Integer.trim_text, read, Integer.ofInt?_of_not_fits fits]
    exact .inl ⟨_, e, unread, failed⟩

/-! ## Truth values -/

theorem convertBool_text_of_word {s : String} (none : s ≠ "0" ∧ s ≠ "1") :
    ∃ e, ScalarType.bool.convert (.text s) = .error e := by
  refine ⟨.typeConversion (.mismatch "bool" "string"), ?_⟩
  change convertBool (.text s) = _
  unfold convertBool
  split
  · next b => contradiction
  · next same => cases same; exact (none.1 rfl).elim
  · next same => cases same; exact (none.2 rfl).elim
  · next n => contradiction
  · rfl

theorem val_of_text {n : Integer} {m : Integer} (same : n.text = m.text) : n.val = m.val := by
  have read := Number.readInt?_eq_some_iff.mpr n.numeral_text
  rw [same, Number.readInt?_eq_some_iff.mpr m.numeral_text] at read
  exact (Option.some.inj read).symm

/-- Zero and one are taken as truth values from their texts, and no other number. -/
theorem agree_convertBool_iff (n : Integer) :
    SameOutcome (ScalarType.bool.convert (.text n.text)) (ScalarType.bool.convert (.integer n)) ↔
      n.val = 0 ∨ n.val = 1 := by
  have number : ScalarType.bool.convert (.integer n) = .ok (.bool (n.val != 0)) := rfl
  constructor
  · intro agree
    by_contra other
    rw [not_or] at other
    have word : n.text ≠ "0" ∧ n.text ≠ "1" :=
      ⟨fun zero => other.1 (val_of_text (m := .zero .int8) zero),
        fun one => other.2 (val_of_text (m := .one .int8) one)⟩
    obtain ⟨e, refused⟩ := convertBool_text_of_word word
    obtain ⟨_, _, _, failed⟩ | ⟨_, taken, _⟩ := agree
    · cases number.symm.trans failed
    · cases refused.symm.trans taken
  · intro small
    have text : n.text = toString n.val := rfl
    obtain zero | one := small
    · refine .inr ⟨.bool false, ?_, by rw [number, zero]; rfl⟩
      rw [text, zero]
      rfl
    · refine .inr ⟨.bool true, ?_, by rw [number, one]; rfl⟩
      rw [text, one]
      rfl

/-- A number is taken where the type has room for it. Its text is taken as the same value, and where the number is
refused it is refused as well, unless the type is that of truth values and the number neither zero nor one. -/
theorem protocols_agree_iff {t : ScalarType} (whole : t.Whole) (n : Integer) :
    ((∃ v, t.convert (.integer n) = .ok v) ↔ ∀ kind, t = .integer kind → kind.Fits n.val) ∧
      (SameOutcome (t.convert (.text n.text)) (t.convert (.integer n)) ↔ (t = .bool → n.val = 0 ∨ n.val = 1)) := by
  cases whole with
  | bool =>
      refine ⟨iff_of_true ⟨_, rfl⟩ fun kind same => ScalarType.noConfusion same, ?_⟩
      exact (agree_convertBool_iff n).trans ⟨fun small _ => small, fun small => small rfl⟩
  | integer kind =>
      constructor
      · constructor
        · rintro ⟨v, taken⟩ kind' same
          cases same
          by_contra outside
          obtain ⟨e, refused⟩ := convertInteger_of_not_fits outside
          cases taken.symm.trans refused
        · exact fun fits => ⟨_, convertInteger_of_fits (fits kind rfl)⟩
      · exact iff_of_true (agree_convertInteger kind n) fun same => ScalarType.noConfusion same

/-- The greatest number of 64 bits is taken from its text as from the number. -/
theorem protocols_agree_greatest :
    let n : Integer := ⟨.uint64, 18446744073709551615, by decide⟩
    (ScalarType.integer .uint64).Whole ∧
      SameOutcome ((ScalarType.integer .uint64).convert (.text n.text))
        ((ScalarType.integer .uint64).convert (.integer n)) :=
  ⟨.integer _, (protocols_agree_iff (.integer _) _).2.mpr fun same => ScalarType.noConfusion same⟩

/-- Two is true as a number, and no truth value as a text. -/
theorem not_protocols_agree :
    ¬ ∀ {t : ScalarType}, t.Whole → ∀ n : Integer,
      SameOutcome (t.convert (.text n.text)) (t.convert (.integer n)) := by
  intro agree
  have two := agree .bool ⟨.int64, 2, by decide⟩
  exact absurd ((agree_convertBool_iff _).mp two) (by decide)

end ScalarType

end TableMapper
