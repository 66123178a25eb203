import TableMapper.FieldType
import TableMapper.Proofs.Number.Numerals
import TableMapper.Rule.Integer

/-! # Integers that rules accept

An integer rule takes integers, and text that is a numeral of at most 64 bits with blanks around it. Of the numbers
it takes those within its bounds, each of which it is given or has from its preset. What it accepts it gives back
as an integer of the same number. Main statement: `checkInteger_accepts_iff`.
-/

namespace TableMapper.Rule

/-- A value denotes a number: an integer its own, and text that of its numeral, as far as 64 bits can hold it. -/
inductive Denotes : Value → Int → Prop
  | integer (i : Integer) : Denotes (.integer i) i.val
  | numeral {v : Value} {s : String} {n : Int} (text : v.text? = some s)
      (numeral : Number.Numeral (Text.trim s).toList n) (fits : IntKind.int64.Fits n ∨ IntKind.uint64.Fits n) :
      Denotes v n

/-- A bound of a rule: the one that it is given, or else the one of its preset. -/
inductive Bound (given : Option Int) (preset : Option Preset) (limit : Preset → Int) : Int → Prop
  | given {b : Int} (own : given = some b) : Bound given preset limit b
  | preset {p : Preset} (open' : given = none) (named : preset = some p) : Bound given preset limit (limit p)

/-- A number is neither below the lower bound nor above the upper one, as far as there are any. -/
def Within (o : RuleOptions) (n : Int) : Prop :=
  (∀ b, Bound o.least o.preset Preset.least b → b ≤ n) ∧ ∀ b, Bound o.greatest o.preset Preset.greatest b → n ≤ b

/-! ## Bounds -/

theorem bound_iff {given : Option Int} {preset : Option Preset} {limit : Preset → Int} {b : Int} :
    Bound given preset limit b ↔ given.or (preset.map limit) = some b := by
  constructor
  · rintro (own | ⟨none, named⟩)
    · rw [own, Option.some_or]
    · rw [none, Option.none_or, named, Option.map_some]
  · intro found
    cases given with
    | some own =>
        cases found
        exact .given rfl
    | none =>
        rw [Option.none_or, Option.map_eq_some_iff] at found
        obtain ⟨p, named, rfl⟩ := found
        exact .preset rfl named

/-- The bounds are kept to exactly by the numbers within them. -/
theorem checkBounds_eq_ok_iff {o : RuleOptions} {n : Int} : checkBounds o n = .ok () ↔ Within o n := by
  simp only [Within, bound_iff]
  change _ ↔ (∀ b, lowerBound o = some b → b ≤ n) ∧ ∀ b, upperBound o = some b → n ≤ b
  unfold checkBounds
  cases lowerBound o <;> cases upperBound o
  · simp
  · next greatest =>
    simp only [reduceCtorEq, false_implies, implies_true, true_and, Option.some.injEq, forall_eq']
    split <;> simp <;> omega
  · next least =>
    simp only [reduceCtorEq, false_implies, implies_true, and_true, Option.some.injEq, forall_eq']
    split <;> simp <;> omega
  · next least greatest =>
    simp only [Option.some.injEq, forall_eq']
    split
    · simp; omega
    · split <;> simp <;> omega

/-! ## Numbers -/

theorem fits128_of_fits {n : Int} (fits : IntKind.int64.Fits n ∨ IntKind.uint64.Fits n) : fits128 n = true := by
  have range : -9223372036854775808 ≤ n ∧ n ≤ 18446744073709551615 := by
    obtain ⟨low, high⟩ | ⟨low, high⟩ := fits
    · exact ⟨low, Int.le_trans high (by decide)⟩
    · exact ⟨Int.le_trans (by decide) low, high⟩
  rw [fits128, Bool.and_eq_true, decide_eq_true_iff, decide_eq_true_iff]
  exact ⟨Int.le_trans (by decide) range.1, Int.lt_of_le_of_lt range.2 (by decide)⟩

theorem of_ofInt? {kind : IntKind} {n : Int} {i : Integer} (h : Integer.ofInt? kind n = some i) :
    kind.Fits n ∧ i.val = n :=
  ⟨(ScalarType.kind_of_ofInt? h) ▸ Integer.val_of_ofInt? h ▸ i.fits, Integer.val_of_ofInt? h⟩

theorem of_integer64? {n : Int} {i : Integer} (h : integer64? n = some i) :
    (IntKind.int64.Fits n ∨ IntKind.uint64.Fits n) ∧ i.val = n := by
  unfold integer64? at h
  split at h
  · next signed =>
    cases h
    exact ⟨.inl (of_ofInt? signed).1, (of_ofInt? signed).2⟩
  · exact ⟨.inr (of_ofInt? h).1, (of_ofInt? h).2⟩

theorem exists_integer64? {n : Int} (fits : IntKind.int64.Fits n ∨ IntKind.uint64.Fits n) :
    ∃ i, integer64? n = some i := by
  by_cases signed : IntKind.int64.Fits n
  · exact ⟨_, by rw [integer64?, Integer.ofInt?_of_fits signed]⟩
  · have unsigned := fits.resolve_left signed
    exact ⟨_, by rw [integer64?, Integer.ofInt?_of_not_fits signed, Integer.ofInt?_of_fits unsigned]⟩

theorem textInt?_of_numeral {s : String} {n : Int} (numeral : Number.Numeral (Text.trim s).toList n)
    (fits : IntKind.int64.Fits n ∨ IntKind.uint64.Fits n) : textInt? s = some n := by
  rw [textInt?, Number.readInt?_eq_some_iff.mpr numeral, Option.filter_some, if_pos (fits128_of_fits fits)]

/-- The integer that a value stands for has a number that the value denotes. -/
theorem denotes_of_integerOf {v : Value} {i : Integer} (h : integerOf v = .ok i) : Denotes v i.val := by
  unfold integerOf at h
  split at h
  · cases h
    exact .integer i
  · split at h
    · cases h
    · next s text =>
      split at h
      · cases h
      · next n read =>
        split at h
        · cases h
        · next j held =>
          cases h
          obtain ⟨fits, val⟩ := of_integer64? held
          rw [textInt?, Option.filter_eq_some_iff] at read
          exact val ▸ .numeral text (Number.readInt?_eq_some_iff.mp read.1) fits

/-- A value that denotes a number stands for an integer of it, and an integer for itself. -/
theorem exists_integerOf {v : Value} {n : Int} (denotes : Denotes v n) :
    ∃ i, integerOf v = .ok i ∧ i.val = n ∧ ∀ j, v = .integer j → i = j := by
  cases denotes with
  | integer i => exact ⟨i, rfl, rfl, fun j same => Value.integer.inj same⟩
  | @numeral _ s _ text numeral fits =>
      have other : ∀ j, v ≠ .integer j := by
        rintro j rfl
        cases text
      obtain ⟨i, held⟩ := exists_integer64? fits
      refine ⟨i, ?_, (of_integer64? held).2, fun j same => (other j same).elim⟩
      unfold integerOf
      split
      · next j => exact (other j rfl).elim
      · simp only [text, textInt?_of_numeral numeral fits, held]

/-! ## The rule -/

theorem checkInteger_eq_ok_iff {o : RuleOptions} {v w : Value} :
    checkInteger o v = .ok w ↔ ∃ i, integerOf v = .ok i ∧ Within o i.val ∧ w = .integer i := by
  simp only [← checkBounds_eq_ok_iff]
  unfold checkInteger
  cases integerOf v with
  | error why => simp
  | ok i => cases bounds : checkBounds o i.val <;> simp [bounds, eq_comm]

theorem within_of_checkInteger {o : RuleOptions} {n : Integer} {w : Value}
    (accepted : checkInteger o (.integer n) = .ok w) : Within o n.val := by
  obtain ⟨i, stands, within, -⟩ := checkInteger_eq_ok_iff.mp accepted
  cases stands
  exact within

/-- An integer rule accepts the values that denote a number within its bounds, and makes of each an integer of that
number: of an integer the integer itself. -/
theorem checkInteger_accepts_iff (o : RuleOptions) (v : Value) :
    ((∃ w, checkInteger o v = .ok w) ↔ ∃ n, Denotes v n ∧ Within o n) ∧
      ∀ n w, Denotes v n → checkInteger o v = .ok w →
        ∃ i : Integer, w = .integer i ∧ i.val = n ∧ ((∃ j, v = .integer j) → w = v) := by
  constructor
  · constructor
    · rintro ⟨w, accepted⟩
      obtain ⟨i, stands, within, -⟩ := checkInteger_eq_ok_iff.mp accepted
      exact ⟨i.val, denotes_of_integerOf stands, within⟩
    · rintro ⟨n, denotes, within⟩
      obtain ⟨i, stands, rfl, -⟩ := exists_integerOf denotes
      exact ⟨_, checkInteger_eq_ok_iff.mpr ⟨i, stands, within, rfl⟩⟩
  · intro n w denotes accepted
    obtain ⟨i, stands, -, rfl⟩ := checkInteger_eq_ok_iff.mp accepted
    obtain ⟨i', stands', val, same⟩ := exists_integerOf denotes
    cases stands.symm.trans stands'
    refine ⟨i, rfl, val, ?_⟩
    rintro ⟨j, rfl⟩
    exact congrArg Value.integer (same j rfl)

/-- Bytes of the greatest number of 64 bits, with a sign and blanks, are accepted between a bound that is given and
one of a preset. -/
theorem checkInteger_accepts_greatest :
    let o : RuleOptions := { least := some 1, preset := some .bigIntUnsigned }
    let v : Value := .bytes " +18446744073709551615\t".toUTF8
    Denotes v 18446744073709551615 ∧ Within o 18446744073709551615 ∧
      ∃ i : Integer, checkInteger o v = .ok (.integer i) ∧ i.val = 18446744073709551615 := by
  intro o v
  have denotes : Denotes v 18446744073709551615 :=
    .numeral (s := " +18446744073709551615\t") (by decide +kernel) (Number.readInt?_eq_some_iff.mp (by decide +kernel))
      (.inr (by decide))
  have within : Within o 18446744073709551615 := checkBounds_eq_ok_iff.mp (by decide)
  obtain ⟨w, accepted⟩ := (checkInteger_accepts_iff o v).1.mpr ⟨_, denotes, within⟩
  obtain ⟨i, rfl, val, -⟩ := (checkInteger_accepts_iff o v).2 _ w denotes accepted
  exact ⟨denotes, within, i, accepted, val⟩

end TableMapper.Rule
