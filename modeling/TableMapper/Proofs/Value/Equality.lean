import TableMapper.Value

/-! # Equal values

Numbers are equal when they are worth the same: decimals of different scales, and zeros of different signs. What is
no number is equal to nothing, not even to itself. All other values are equal when they are the same. So equality
of values is symmetric and transitive, but less than sameness in one way and more in another. Main statement:
`Value.equates_equals`.
-/

namespace TableMapper

/-- A symmetric and transitive relation. What it does not relate to itself, it relates to nothing. -/
structure Equates {α : Type} (same : α → α → Bool) : Prop where
  symm : ∀ {a b : α}, same a b = true → same b a = true
  trans : ∀ {a b c : α}, same a b = true → same b c = true → same a c = true

theorem Equates.comm {α : Type} {same : α → α → Bool} (h : Equates same) (a b : α) : same a b = same b a :=
  Bool.eq_iff_iff.mpr ⟨h.symm, h.symm⟩

theorem equates_beq {α : Type} [DecidableEq α] : Equates fun a b : α => a == b :=
  ⟨fun same => by simpa using (eq_of_beq same).symm, fun first second => by
    simpa using (eq_of_beq first).trans (eq_of_beq second)⟩

theorem Equates.isEqv {α : Type} {same : α → α → Bool} (h : Equates same) :
    Equates fun as bs : List α => as.isEqv bs same := by
  constructor
  · intro as bs alike
    induction as generalizing bs with
    | nil => cases bs <;> simp_all [List.isEqv]
    | cons a as ih =>
        cases bs with
        | nil => cases alike
        | cons b bs =>
            simp only [List.isEqv, Bool.and_eq_true] at alike ⊢
            exact ⟨h.symm alike.1, ih alike.2⟩
  · intro as bs cs first second
    induction as generalizing bs cs with
    | nil => cases bs <;> simp_all [List.isEqv]
    | cons a as ih =>
        cases bs with
        | nil => cases first
        | cons b bs =>
            cases cs with
            | nil => cases second
            | cons c cs =>
                simp only [List.isEqv, Bool.and_eq_true] at first second ⊢
                exact ⟨h.trans first.1 second.1, ih first.2 second.2⟩

/-! ## Numbers -/

namespace Number

variable {f : BinaryFormat}

/-- What a number is as a code with a sign. The zeros are one, and what is no number is none. -/
def Binary.signedCode? (x : Binary f) : Option Int :=
  if x.isNaN then none else some (if x.negative then -x.code else x.code)

/-- Whether two floating-point numbers are equal. -/
def Binary.equals (x y : Binary f) : Bool := x.signedCode?.isSome && x.signedCode? == y.signedCode?

theorem Binary.equates_equals : Equates (Binary.equals (f := f)) := by
  constructor
  · intro x y same
    simp only [equals, Bool.and_eq_true, beq_iff_eq] at same ⊢
    exact ⟨same.2 ▸ same.1, same.2.symm⟩
  · intro x y z first second
    simp only [equals, Bool.and_eq_true, beq_iff_eq] at first second ⊢
    exact ⟨first.1, first.2.trans second.2⟩

/-- How many of the least units a decimal is worth. -/
def Decimal.units (d : Decimal) : Int :=
  (if d.negative then -1 else 1) * (d.mantissa * Nat.pow 10 (maxScale - d.scale) : Nat)

/-- Whether two decimals are worth the same. -/
def Decimal.equals (d e : Decimal) : Bool := d.units == e.units

theorem Decimal.equates_equals : Equates Decimal.equals :=
  ⟨fun same => equates_beq.symm same, fun first second => equates_beq.trans first second⟩

end Number

/-- Whether two numbers of documents are equal. One that is kept exactly is never equal to one that is not. -/
def JsonNumber.equals : JsonNumber → JsonNumber → Bool
  | .whole n, .whole m => n == m
  | .real x, .real y => x.equals y
  | _, _ => false

theorem JsonNumber.equates_equals : Equates JsonNumber.equals := by
  constructor
  · intro a b same
    cases a <;> cases b
    case whole.whole => exact equates_beq.symm same
    case real.real => exact Number.Binary.equates_equals.symm same
    all_goals cases same
  · intro a b c first second
    cases a <;> cases b <;> cases c
    case whole.whole.whole => exact equates_beq.trans first second
    case real.real.real => exact Number.Binary.equates_equals.trans first second
    all_goals first | cases first | cases second

/-! ## Documents -/

namespace Json

variable {number : JsonNumber → JsonNumber → Bool}

mutual

theorem sameBy_symm (h : Equates number) : ∀ {a b : Json}, sameBy number a b = true → sameBy number b a = true
  | .null, b, same => by cases b <;> simp_all [sameBy]
  | .bool _, b, same => by cases b <;> simp_all [sameBy]
  | .number _, b, same => by
    cases b with
    | number n => simpa [sameBy] using h.symm (by simpa [sameBy] using same)
    | _ => simp [sameBy] at same
  | .text _, b, same => by cases b <;> simp_all [sameBy]
  | .array as, b, same => by
    cases b with
    | array bs => simpa [sameBy] using sameItemsBy_symm h (by simpa [sameBy] using same)
    | _ => simp [sameBy] at same
  | .object as, b, same => by
    cases b with
    | object bs => simpa [sameBy] using sameMembersBy_symm h (by simpa [sameBy] using same)
    | _ => simp [sameBy] at same

theorem sameItemsBy_symm (h : Equates number) :
    ∀ {as bs : List Json}, sameItemsBy number as bs = true → sameItemsBy number bs as = true
  | [], bs, same => by cases bs <;> simp_all [sameItemsBy]
  | a :: as, bs, same => by
    cases bs with
    | nil => simp [sameItemsBy] at same
    | cons b bs =>
      simp only [sameItemsBy, Bool.and_eq_true] at same ⊢
      exact ⟨sameBy_symm h same.1, sameItemsBy_symm h same.2⟩

theorem sameMembersBy_symm (h : Equates number) :
    ∀ {as bs : List (String × Json)}, sameMembersBy number as bs = true → sameMembersBy number bs as = true
  | [], bs, same => by cases bs <;> simp_all [sameMembersBy]
  | (k, a) :: as, bs, same => by
    cases bs with
    | nil => simp [sameMembersBy] at same
    | cons b bs =>
      obtain ⟨l, b⟩ := b
      simp only [sameMembersBy, Bool.and_eq_true, beq_iff_eq] at same ⊢
      exact ⟨⟨same.1.1.symm, sameBy_symm h same.1.2⟩, sameMembersBy_symm h same.2⟩

end

mutual

theorem sameBy_trans (h : Equates number) :
    ∀ {a b c : Json}, sameBy number a b = true → sameBy number b c = true → sameBy number a c = true
  | .null, b, c, first, second => by
    cases b with
    | null => exact second
    | _ => simp [sameBy] at first
  | .bool s, b, c, first, second => by
    cases b with
    | bool t =>
      obtain rfl : s = t := by simpa [sameBy] using first
      exact second
    | _ => simp [sameBy] at first
  | .number _, b, c, first, second => by
    cases b with
    | number n =>
      cases c with
      | number k => simpa [sameBy] using h.trans (by simpa [sameBy] using first) (by simpa [sameBy] using second)
      | _ => simp [sameBy] at second
    | _ => simp [sameBy] at first
  | .text s, b, c, first, second => by
    cases b with
    | text t =>
      obtain rfl : s = t := by simpa [sameBy] using first
      exact second
    | _ => simp [sameBy] at first
  | .array as, b, c, first, second => by
    cases b with
    | array bs =>
      cases c with
      | array cs =>
        simpa [sameBy] using sameItemsBy_trans h (by simpa [sameBy] using first) (by simpa [sameBy] using second)
      | _ => simp [sameBy] at second
    | _ => simp [sameBy] at first
  | .object as, b, c, first, second => by
    cases b with
    | object bs =>
      cases c with
      | object cs =>
        simpa [sameBy] using sameMembersBy_trans h (by simpa [sameBy] using first) (by simpa [sameBy] using second)
      | _ => simp [sameBy] at second
    | _ => simp [sameBy] at first

theorem sameItemsBy_trans (h : Equates number) : ∀ {as bs cs : List Json},
    sameItemsBy number as bs = true → sameItemsBy number bs cs = true → sameItemsBy number as cs = true
  | [], bs, cs, first, second => by
    cases bs with
    | nil => exact second
    | cons => simp [sameItemsBy] at first
  | a :: as, bs, cs, first, second => by
    cases bs with
    | nil => simp [sameItemsBy] at first
    | cons b bs =>
      cases cs with
      | nil => simp [sameItemsBy] at second
      | cons c cs =>
        simp only [sameItemsBy, Bool.and_eq_true] at first second ⊢
        exact ⟨sameBy_trans h first.1 second.1, sameItemsBy_trans h first.2 second.2⟩

theorem sameMembersBy_trans (h : Equates number) : ∀ {as bs cs : List (String × Json)},
    sameMembersBy number as bs = true → sameMembersBy number bs cs = true → sameMembersBy number as cs = true
  | [], bs, cs, first, second => by
    cases bs with
    | nil => exact second
    | cons => simp [sameMembersBy] at first
  | (k, a) :: as, bs, cs, first, second => by
    cases bs with
    | nil => simp [sameMembersBy] at first
    | cons b bs =>
      cases cs with
      | nil => simp [sameMembersBy] at second
      | cons c cs =>
        obtain ⟨l, b⟩ := b
        obtain ⟨m, c⟩ := c
        simp only [sameMembersBy, Bool.and_eq_true, beq_iff_eq] at first second ⊢
        exact ⟨⟨first.1.1.trans second.1.1, sameBy_trans h first.1.2 second.1.2⟩,
          sameMembersBy_trans h first.2 second.2⟩

end

end Json

/-! ## Values -/

namespace Value

/-- Whether two values are equal: numbers with a fraction as numbers, and others if they are the same. -/
def equals (v w : Value) : Bool :=
  match v with
  | .single x => match w with | .single y => x.equals y | _ => false
  | .double x => match w with | .double y => x.equals y | _ => false
  | .decimal d => match w with | .decimal e => d.equals e | _ => false
  | .json j => match w with | .json k => Json.sameBy JsonNumber.equals j k | _ => false
  | v => v == w

theorem equals_symm {v w : Value} (same : v.equals w = true) : w.equals v = true := by
  cases v with
  | single x =>
      cases w with
      | single y => exact Number.Binary.equates_equals.symm same
      | _ => cases same
  | double x =>
      cases w with
      | double y => exact Number.Binary.equates_equals.symm same
      | _ => cases same
  | decimal d =>
      cases w with
      | decimal e => exact Number.Decimal.equates_equals.symm same
      | _ => cases same
  | json j =>
      cases w with
      | json k => exact Json.sameBy_symm JsonNumber.equates_equals same
      | _ => cases same
  | _ =>
      obtain rfl := eq_of_beq same
      exact same

theorem equals_trans {u v w : Value} (first : u.equals v = true) (second : v.equals w = true) :
    u.equals w = true := by
  cases u with
  | single x =>
      cases v with
      | single y =>
          cases w with
          | single z => exact Number.Binary.equates_equals.trans first second
          | _ => cases second
      | _ => cases first
  | double x =>
      cases v with
      | double y =>
          cases w with
          | double z => exact Number.Binary.equates_equals.trans first second
          | _ => cases second
      | _ => cases first
  | decimal d =>
      cases v with
      | decimal e =>
          cases w with
          | decimal g => exact Number.Decimal.equates_equals.trans first second
          | _ => cases second
      | _ => cases first
  | json j =>
      cases v with
      | json k =>
          cases w with
          | json l => exact Json.sameBy_trans JsonNumber.equates_equals first second
          | _ => cases second
      | _ => cases first
  | _ =>
      obtain rfl := eq_of_beq first
      exact second

theorem equates_equals : Equates equals := ⟨equals_symm, equals_trans⟩

-- a decimal and one of another scale, the zeros, and what is no number
example : (decimal ⟨false, 10, 1, by decide, by decide, by decide⟩).equals
    (decimal ⟨false, 100, 2, by decide, by decide, by decide⟩) = true := by decide
example : (double ⟨true, 0, by decide⟩).equals (double ⟨false, 0, by decide⟩) = true := by decide
example : (double (.nan false)).equals (double (.nan false)) = false := by decide

end Value

end TableMapper
