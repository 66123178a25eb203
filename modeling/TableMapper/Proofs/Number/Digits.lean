import Mathlib.Tactic.Ring
import TableMapper.Number.Integer

/-! # Digits name their number

A run of digits denotes a number, and the digits of a number denote that number again, with zeros in front
or without. So integers that are shown alike are equal.
-/

namespace TableMapper

namespace Number

theorem ofDigits_eq (cs : List Char) : ofDigits cs = Nat.ofDigitChars 10 cs 0 := by
  rw [ofDigits, Nat.ofDigitChars_eq_foldl]
  refine congrArg (fun step => cs.foldl step 0) (funext fun n => funext fun c => ?_)
  rw [Nat.mul_comm, digitValue]

theorem ofDigits_append (cs ds : List Char) :
    ofDigits (cs ++ ds) = 10 ^ ds.length * ofDigits cs + ofDigits ds := by
  rw [ofDigits_eq, ofDigits_eq, ofDigits_eq, Nat.ofDigitChars_append, Nat.ofDigitChars_eq_ofDigitChars_zero]

/-- The digits of a number denote it. -/
theorem ofDigits_digits (n : Nat) : ofDigits (digits n) = n := by
  rw [ofDigits_eq, digits, Nat.ofDigitChars_ten_toDigits]

theorem digits_injective : Function.Injective digits := fun m n same => by
  rw [← ofDigits_digits m, same, ofDigits_digits]

theorem isDigit_of_mem_digits {n : Nat} {c : Char} (h : c ∈ digits n) : c.isDigit = true :=
  Nat.isDigit_of_mem_toDigits (by decide) (by decide) h

theorem ofDigits_replicate_zero (k : Nat) : ofDigits (List.replicate k '0') = 0 := by
  rw [ofDigits_eq, Nat.ofDigitChars_replicate_zero, Nat.mul_zero]

/-- Zeros in front do not change the number. -/
theorem ofDigits_padded (width n : Nat) : ofDigits (padded width n) = n := by
  rw [padded, ofDigits_append, ofDigits_replicate_zero, ofDigits_digits, Nat.mul_zero, Nat.zero_add]

theorem padded_injective (width : Nat) : Function.Injective (padded width) := fun m n same => by
  rw [← ofDigits_padded width m, same, ofDigits_padded]

theorem isDigit_of_mem_padded {width n : Nat} {c : Char} (h : c ∈ padded width n) : c.isDigit = true := by
  obtain zero | digit := List.mem_append.1 h
  · rw [List.eq_of_mem_replicate zero]
    rfl
  · exact isDigit_of_mem_digits digit

theorem digitCount_pos (n : Nat) : 0 < digitCount n := Nat.length_toDigits_pos

theorem digitCount_le_iff {n k : Nat} (some : 0 < k) : digitCount n ≤ k ↔ n < 10 ^ k :=
  Nat.length_toDigits_le_iff (by decide) some

theorem lt_pow_digitCount (n : Nat) : n < 10 ^ digitCount n :=
  (digitCount_le_iff (digitCount_pos n)).1 (Nat.le_refl _)

theorem pow_digitCount_le {n : Nat} (some : 0 < n) : 10 ^ (digitCount n - 1) ≤ n := by
  obtain single | more := Nat.eq_or_lt_of_le (digitCount_pos n)
  · rw [← single]
    exact some
  · refine Nat.le_of_not_lt fun short => ?_
    have fewer := (digitCount_le_iff (by omega)).2 short
    omega

/-- A number that has no more digits than the width fills the width. -/
theorem length_padded {width n : Nat} (fits : n < 10 ^ width) (some : 0 < width) :
    (padded width n).length = width := by
  have short : digitCount n ≤ width := (digitCount_le_iff some).2 fits
  rw [padded, List.length_append, List.length_replicate]
  exact Nat.sub_add_cancel short

theorem le_length_padded (width n : Nat) : width ≤ (padded width n).length := by
  rw [padded, List.length_append, List.length_replicate, digitCount]
  omega

theorem digits_ne_nil (n : Nat) : digits n ≠ [] := List.ne_nil_of_length_pos (digitCount_pos n)

theorem readNat?_digits (n : Nat) : readNat? (digits n) = some n := by
  have filled : (digits n).isEmpty = false := List.isEmpty_eq_false_iff.mpr (digits_ne_nil n)
  have all : (digits n).all Char.isDigit = true := List.all_eq_true.mpr fun c => isDigit_of_mem_digits
  rw [readNat?, filled, all, ofDigits_digits]
  rfl

theorem toList_toString (n : Int) :
    (toString n).toList = if 0 ≤ n then digits n.toNat else '-' :: digits (-n).toNat := by
  rw [Int.toString_eq_repr, Int.repr_eq_if]
  split
  · exact Nat.toList_repr
  · rw [String.toList_append, Nat.toList_repr]
    rfl

theorem toList_paddedText (width n : Nat) : (paddedText width n).toList = padded width n :=
  String.toList_ofList

end Number

namespace Integer

open Number (digits digits_injective digits_ne_nil isDigit_of_mem_digits readInt? readNat?_digits)

/-- The digits of a number in the range of a kind are read as it, whether the kind has a sign or not. -/
theorem read?_digits {kind : IntKind} {n : Nat} (fits : kind.Fits n) :
    read? kind (digits n) = some ⟨kind, n, fits⟩ := by
  obtain ⟨c, cs, front⟩ := List.exists_cons_of_ne_nil (digits_ne_nil n)
  have digit : c.isDigit = true := isDigit_of_mem_digits (front ▸ List.mem_cons_self ..)
  have plain : readInt? (digits n) = some (n : Int) := by
    unfold readInt?
    split
    · next split => rw [front] at split; cases split; exact absurd digit (by decide)
    · next split => rw [front] at split; cases split; exact absurd digit (by decide)
    · rw [readNat?_digits]
      rfl
  unfold read?
  split
  · next split => rw [front] at split; cases split; exact absurd digit (by decide)
  · rw [plain, Option.bind_some, ofInt?_of_fits fits]

theorem toList_text (n : Integer) :
    n.text.toList = if 0 ≤ n.val then digits n.val.toNat else '-' :: digits (-n.val).toNat :=
  Number.toList_toString n.val

/-- The text of an integer is made of digits and perhaps a minus sign. -/
theorem not_mem_text {n : Integer} {c : Char} (digit : c.isDigit = false) (sign : c ≠ '-') :
    c ∉ n.text.toList := by
  have absent : ∀ m, c ∉ digits m := fun m member =>
    Bool.false_ne_true (digit.symm.trans (isDigit_of_mem_digits member))
  rw [toList_text]
  split
  · exact absent _
  · exact List.not_mem_cons_of_ne_of_not_mem sign (absent _)

/-- Integers of one kind that are shown alike are equal. -/
theorem text_injective {m n : Integer} (kind : m.kind = n.kind) (same : m.text = n.text) : m = n := by
  have minus : ∀ a b : Nat, digits a ≠ '-' :: digits b := by
    intro a b equal
    have digit : '-'.isDigit = true := isDigit_of_mem_digits (n := a) (equal ▸ List.mem_cons_self ..)
    exact absurd digit (by decide)
  have chars := congrArg String.toList same
  rw [toList_text, toList_text] at chars
  have val : m.val = n.val := by
    split at chars <;> split at chars
    · have := digits_injective chars
      omega
    · exact absurd chars (minus _ _)
    · exact absurd chars.symm (minus _ _)
    · have := digits_injective (List.cons.inj chars).2
      omega
  obtain ⟨kind', val', fits'⟩ := n
  cases m
  cases kind
  cases val
  rfl

end Integer

end TableMapper
