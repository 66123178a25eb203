import TableMapper.Proofs.Number.Digits
import TableMapper.Proofs.Text.Blanks
import TableMapper.Proofs.Text.Words

/-! # Numerals

A numeral is a run of digits, with or without a sign in front of it. Numbers are read from numerals and from
nothing else. The text of an integer is a numeral of it, so a kind of integer reads the text exactly when it holds
the number.
-/

namespace TableMapper

namespace Number

/-- A run of digits that is not empty. -/
def IsRun (cs : List Char) : Prop := cs ≠ [] ∧ ∀ c ∈ cs, c.isDigit = true

/-- A numeral, and the number that it denotes. -/
inductive Numeral : List Char → Int → Prop
  | plain {cs : List Char} (run : IsRun cs) : Numeral cs (Nat.ofDigitChars 10 cs 0)
  | plus {cs : List Char} (run : IsRun cs) : Numeral ('+' :: cs) (Nat.ofDigitChars 10 cs 0)
  | minus {cs : List Char} (run : IsRun cs) : Numeral ('-' :: cs) (-(Nat.ofDigitChars 10 cs 0 : Int))

theorem isRun_digits (n : Nat) : IsRun (digits n) := ⟨digits_ne_nil n, fun _ => isDigit_of_mem_digits⟩

theorem IsRun.not_mem {cs : List Char} (run : IsRun cs) {c : Char} (other : c.isDigit = false) : c ∉ cs :=
  fun member => Bool.false_ne_true (other.symm.trans (run.2 c member))

theorem readNat?_eq_some_iff {cs : List Char} {n : Nat} :
    readNat? cs = some n ↔ IsRun cs ∧ n = Nat.ofDigitChars 10 cs 0 := by
  rw [readNat?, ← ofDigits_eq, Option.ite_none_left_eq_some, Option.some.injEq, Bool.or_eq_true, not_or,
    List.isEmpty_iff, Bool.not_eq_true', Bool.not_eq_false, List.all_eq_true, @eq_comm Nat]
  rfl

theorem readInt?_minus (cs : List Char) : readInt? ('-' :: cs) = (readNat? cs).map fun n : Nat => -(n : Int) := by
  rw [readInt?]
  cases readNat? cs <;> rfl

/-- What has no sign in front is read as a run of digits. -/
theorem readInt?_cases (cs : List Char) :
    (∃ ds, cs = '+' :: ds) ∨ (∃ ds, cs = '-' :: ds) ∨ readInt? cs = (readNat? cs).map Int.ofNat := by
  unfold readInt?
  split
  · exact .inl ⟨_, rfl⟩
  · exact .inr (.inl ⟨_, rfl⟩)
  · exact .inr (.inr rfl)

theorem map_readNat?_eq_some_iff {f : Nat → Int} {cs : List Char} {n : Int} :
    (readNat? cs).map f = some n ↔ IsRun cs ∧ f (Nat.ofDigitChars 10 cs 0) = n := by
  simp [Option.map_eq_some_iff, readNat?_eq_some_iff]

/-- Numbers are read from their numerals. -/
theorem readInt?_eq_some_iff {cs : List Char} {n : Int} : readInt? cs = some n ↔ Numeral cs n := by
  constructor
  · intro read
    obtain ⟨ds, rfl⟩ | ⟨ds, rfl⟩ | bare := readInt?_cases cs
    · obtain ⟨run, rfl⟩ := map_readNat?_eq_some_iff.mp read
      exact .plus run
    · rw [readInt?_minus] at read
      obtain ⟨run, rfl⟩ := map_readNat?_eq_some_iff.mp read
      exact .minus run
    · rw [bare] at read
      obtain ⟨run, rfl⟩ := map_readNat?_eq_some_iff.mp read
      exact .plain run
  · intro numeral
    cases numeral with
    | plain run =>
        obtain ⟨ds, rfl⟩ | ⟨ds, rfl⟩ | bare := readInt?_cases cs
        · exact (run.not_mem rfl (List.mem_cons_self ..)).elim
        · exact (run.not_mem rfl (List.mem_cons_self ..)).elim
        · rw [bare]
          exact map_readNat?_eq_some_iff.mpr ⟨run, rfl⟩
    | plus run => exact map_readNat?_eq_some_iff.mpr ⟨run, rfl⟩
    | minus run =>
        rw [readInt?_minus]
        exact map_readNat?_eq_some_iff.mpr ⟨run, rfl⟩

theorem numeral_natCast (n : Nat) : Numeral (digits n) n := by
  have denoted : Nat.ofDigitChars 10 (digits n) 0 = n := (ofDigits_eq _).symm.trans (ofDigits_digits n)
  have numeral := Numeral.plain (isRun_digits n)
  rwa [denoted] at numeral

theorem numeral_neg (n : Nat) : Numeral ('-' :: digits n) (-n) := by
  have denoted : Nat.ofDigitChars 10 (digits n) 0 = n := (ofDigits_eq _).symm.trans (ofDigits_digits n)
  have numeral := Numeral.minus (isRun_digits n)
  rwa [denoted] at numeral

end Number

namespace Integer

open Number (Numeral numeral_natCast numeral_neg readInt? readInt?_eq_some_iff isDigit_of_mem_digits)

theorem numeral_text (n : Integer) : Numeral n.text.toList n.val := by
  rw [toList_text]
  split
  · next natural =>
    have numeral := numeral_natCast n.val.toNat
    rwa [Int.toNat_of_nonneg natural] at numeral
  · have numeral := numeral_neg (-n.val).toNat
    rwa [Int.toNat_of_nonneg (by omega), Int.neg_neg] at numeral

/-- A number with a minus sign is negative, and kinds without a sign do not hold it. -/
theorem ofInt?_of_minus {n : Integer} {rest : List Char} (minus : n.text.toList = '-' :: rest) {kind : IntKind}
    (unsigned : kind.signed = false) : ofInt? kind n.val = none := by
  have negative : n.val < 0 := by
    refine Int.not_le.mp fun natural => ?_
    rw [toList_text, if_pos natural] at minus
    exact absurd (isDigit_of_mem_digits (minus ▸ List.mem_cons_self ..)) (by decide)
  have least : kind.least = 0 := by rw [IntKind.least, unsigned, if_neg Bool.false_ne_true]
  exact ofInt?_of_not_fits fun fits => absurd (least ▸ fits.1) (Int.not_le.mpr negative)

/-- The text of an integer is read as a kind exactly when the kind holds the number. -/
theorem read?_text (kind : IntKind) (n : Integer) : read? kind n.text.toList = ofInt? kind n.val := by
  have read : readInt? n.text.toList = some n.val := readInt?_eq_some_iff.mpr n.numeral_text
  unfold read?
  split
  · next rest minus =>
    cases signed : kind.signed with
    | true => rw [if_pos rfl, read, Option.bind_some]
    | false => rw [if_neg Bool.false_ne_true, ofInt?_of_minus minus signed]
  · rw [read, Option.bind_some]

theorem trim_text (n : Integer) : Text.trim n.text = n.text := by
  have solid : ∀ c ∈ n.text.toList, Text.isBlank c = false := by
    intro c member
    by_cases digit : c.isDigit = true
    · exact Text.Words.isBlank_of_isDigit digit
    · by_cases minus : c = '-'
      · rw [minus]
        rfl
      · exact (not_mem_text (Bool.not_eq_true _ ▸ digit) minus member).elim
  have tight : Text.Tight Text.isBlank n.text.toList :=
    ⟨fun c first => solid c (List.mem_of_mem_head? first), fun c last => solid c (List.mem_of_mem_getLast? last)⟩
  rw [Text.trim, tight.trimList_eq, String.ofList_toList]

end Integer

end TableMapper
