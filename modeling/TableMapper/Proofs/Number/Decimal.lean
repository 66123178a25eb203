import Mathlib.Data.List.TakeWhile
import TableMapper.Number.Decimal
import TableMapper.Proofs.Number.Digits
import TableMapper.Proofs.Text.Blanks

/-! # Decimals as text

A decimal is shown with all its digits, so that the text names its sign, its mantissa and its scale, and
reading the text gives the decimal back.
-/

namespace TableMapper.Number

/-- A text up to the first character of a kind is found again, whatever stands behind it. -/
theorem append_inj_of_break {p : Char → Bool} {front front' rest rest' : List Char}
    (h : ∀ c ∈ front, p c = true) (h' : ∀ c ∈ front', p c = true)
    (stop : ∀ c ∈ rest.head?, p c = false) (stop' : ∀ c ∈ rest'.head?, p c = false)
    (same : front ++ rest = front' ++ rest') : front = front' ∧ rest = rest' := by
  have found : ∀ {front rest : List Char}, (∀ c ∈ front, p c = true) → (∀ c ∈ rest.head?, p c = false) →
      (front ++ rest).takeWhile p = front := by
    intro front rest h stop
    rw [List.takeWhile_append_of_pos h, Text.takeWhile_eq_nil_iff_of_head.mpr stop, List.append_nil]
  have fronts : front = front' := by rw [← found h stop, same, found h' stop']
  subst fronts
  exact ⟨rfl, List.append_cancel_left same⟩

namespace Decimal

/-- The digits of a decimal before the point. -/
def whole (d : Decimal) : List Char :=
  (padded (d.scale + 1) d.mantissa).take ((padded (d.scale + 1) d.mantissa).length - d.scale)

/-- The digits of a decimal after the point. -/
def fraction (d : Decimal) : List Char :=
  (padded (d.scale + 1) d.mantissa).drop ((padded (d.scale + 1) d.mantissa).length - d.scale)

theorem toList_text (d : Decimal) :
    d.text.toList =
      (if d.negative then ['-'] else []) ++ (d.whole ++ if d.scale = 0 then [] else '.' :: d.fraction) := by
  rw [text, String.toList_ofList, List.append_assoc]
  rfl

theorem whole_append_fraction (d : Decimal) : d.whole ++ d.fraction = padded (d.scale + 1) d.mantissa :=
  List.take_append_drop ..

theorem isDigit_of_mem_whole {d : Decimal} {c : Char} (h : c ∈ d.whole) : c.isDigit = true :=
  isDigit_of_mem_padded (List.mem_of_mem_take h)

/-- As many digits as the scale says stand after the point, and at least one before it. -/
theorem length_fraction (d : Decimal) : d.fraction.length = d.scale ∧ d.whole ≠ [] := by
  have long := le_length_padded (d.scale + 1) d.mantissa
  constructor
  · rw [fraction, List.length_drop]
    omega
  · rw [whole, ← List.length_pos_iff, List.length_take]
    omega

/-- Decimals that are shown alike are equal. -/
theorem text_injective {d e : Decimal} (same : d.text = e.text) : d = e := by
  have sign : ∀ {d : Decimal} {rest rest' : List Char}, '-' :: rest ≠ d.whole ++ rest' := by
    intro d rest rest' equal
    obtain ⟨c, cs, front⟩ := List.exists_cons_of_ne_nil d.length_fraction.2
    rw [front, List.cons_append] at equal
    have digit : '-'.isDigit = true := by
      rw [(List.cons.inj equal).1]
      exact isDigit_of_mem_whole (front ▸ List.mem_cons_self ..)
    exact absurd digit (by decide)
  have chars := congrArg String.toList same
  rw [toList_text, toList_text] at chars
  have unsigned : d.negative = e.negative ∧
      (d.whole ++ if d.scale = 0 then [] else '.' :: d.fraction) =
        e.whole ++ if e.scale = 0 then [] else '.' :: e.fraction := by
    cases negative : d.negative <;> cases negative' : e.negative <;>
      simp only [negative, negative', if_true, Bool.false_eq_true, if_false, List.nil_append,
        List.singleton_append] at chars
    · exact ⟨rfl, chars⟩
    · exact absurd chars.symm sign
    · exact absurd chars sign
    · exact ⟨rfl, (List.cons.inj chars).2⟩
  have stops : ∀ (d : Decimal), ∀ c ∈ (if d.scale = 0 then [] else '.' :: d.fraction).head?,
      c.isDigit = false := by
    intro d c head
    split at head
    · exact nomatch head
    · obtain rfl := Option.some.inj head
      rfl
  obtain ⟨wholes, rests⟩ := append_inj_of_break (p := Char.isDigit) (fun _ => isDigit_of_mem_whole)
    (fun _ => isDigit_of_mem_whole) (stops d) (stops e) unsigned.2
  have behind : ∀ d : Decimal, (if d.scale = 0 then [] else '.' :: d.fraction).drop 1 = d.fraction := by
    intro d
    split
    · next zero => exact (List.length_eq_zero_iff.1 (d.length_fraction.1.trans zero)).symm
    · rfl
  have fractions : d.fraction = e.fraction := by rw [← behind d, rests, behind e]
  have scales : d.scale = e.scale := by rw [← d.length_fraction.1, fractions, e.length_fraction.1]
  have mantissas : d.mantissa = e.mantissa := by
    rw [← ofDigits_padded (d.scale + 1) d.mantissa, ← d.whole_append_fraction, wholes, fractions,
      e.whole_append_fraction, ofDigits_padded]
  obtain ⟨negative, mantissa, scale⟩ := d
  obtain ⟨rfl, rfl, rfl⟩ := And.intro unsigned.1 (And.intro mantissas scales)
  rfl

/-! ## Reading the text -/

/-- Digits that follow a number make it no smaller. -/
theorem le_foldl_digits (m : Nat) (cs : List Char) :
    m ≤ cs.foldl (fun n c => n * 10 + digitValue c) m := by
  induction cs generalizing m with
  | nil => exact Nat.le_refl m
  | cons c cs ih => exact Nat.le_trans (by omega) (ih (m * 10 + digitValue c))

theorem readDigits_whole {cs : List Char} (digits : ∀ c ∈ cs, c.isDigit = true) {m : Nat}
    (small : cs.foldl (fun n c => n * 10 + digitValue c) m < mantissaLimit) (started : Bool)
    (rest : List Char) : readDigits ⟨m, 0, false, started⟩ (cs ++ rest) =
      readDigits ⟨cs.foldl (fun n c => n * 10 + digitValue c) m, 0, false, started || !cs.isEmpty⟩ rest := by
  induction cs generalizing m started with
  | nil => rw [List.nil_append, List.foldl_nil, List.isEmpty_nil, Bool.not_true, Bool.or_false]
  | cons c cs ih =>
      rw [List.forall_mem_cons] at digits
      have here : m * 10 + digitValue c < mantissaLimit := Nat.lt_of_le_of_lt (le_foldl_digits _ cs) small
      rw [List.cons_append, readDigits]
      simp only [Bool.false_and, Bool.false_eq_true, if_false, digits.1, if_true, here]
      rw [ih digits.2 small, List.foldl_cons, List.isEmpty_cons, Bool.true_or, Bool.not_false, Bool.or_true]

theorem readDigits_fraction {cs : List Char} (digits : ∀ c ∈ cs, c.isDigit = true) {m k : Nat}
    (small : cs.foldl (fun n c => n * 10 + digitValue c) m < mantissaLimit) (room : k + cs.length ≤ maxScale) :
    readDigits ⟨m, k, true, true⟩ cs =
      some (cs.foldl (fun n c => n * 10 + digitValue c) m, k + cs.length) := by
  induction cs generalizing m k with
  | nil => rfl
  | cons c cs ih =>
      rw [List.forall_mem_cons] at digits
      have here : m * 10 + digitValue c < mantissaLimit := Nat.lt_of_le_of_lt (le_foldl_digits _ cs) small
      rw [List.length_cons] at room ⊢
      have free : ¬ maxScale ≤ k := by omega
      rw [readDigits]
      simp only [Bool.true_and, decide_eq_true_eq, free, if_false, digits.1, if_true, here]
      rw [ih digits.2 small (by omega), List.foldl_cons, Nat.add_assoc, Nat.add_comm 1]

theorem readDigits_text (d : Decimal) :
    readDigits ⟨0, 0, false, false⟩ (d.whole ++ if d.scale = 0 then [] else '.' :: d.fraction) =
      some (d.mantissa, d.scale) := by
  have number : (d.whole ++ d.fraction).foldl (fun n c => n * 10 + digitValue c) 0 = d.mantissa := by
    rw [whole_append_fraction]
    exact ofDigits_padded (d.scale + 1) d.mantissa
  have digits : ∀ c ∈ d.whole ++ d.fraction, c.isDigit = true := by
    rw [whole_append_fraction]
    exact fun c member => isDigit_of_mem_padded member
  have small := d.small
  rw [← number, List.foldl_append] at small
  obtain ⟨length, some⟩ := d.length_fraction
  have filled : d.whole.isEmpty = false := List.isEmpty_eq_false_iff.mpr some
  rw [readDigits_whole (fun c member => digits c (List.mem_append_left _ member))
    (Nat.lt_of_le_of_lt (le_foldl_digits _ d.fraction) small), filled, Bool.not_false, Bool.or_true]
  split
  · next zero =>
    rw [zero, List.length_eq_zero_iff] at length
    rw [length, List.append_nil] at number
    rw [number, zero]
    rfl
  · rw [readDigits]
    simp only [Bool.false_and, Bool.false_eq_true, if_false, and_self, if_true,
      show '.'.isDigit = false from rfl]
    have room : 0 + d.fraction.length ≤ maxScale := by rw [length, Nat.zero_add]; exact d.scaleLe
    rw [readDigits_fraction (fun c member => digits c (List.mem_append_right _ member)) small room, length,
      Nat.zero_add, ← List.foldl_append, number]

theorem mem_text {d : Decimal} {c : Char} (h : c ∈ d.text.toList) :
    c = '-' ∨ c = '.' ∨ c.isDigit = true := by
  have digits : ∀ c ∈ d.whole ++ d.fraction, c.isDigit = true := by
    rw [whole_append_fraction]
    exact fun c member => isDigit_of_mem_padded member
  rw [toList_text] at h
  obtain sign | front | rest := (List.mem_append.mp h).imp_right List.mem_append.mp
  · split at sign
    · exact .inl (List.mem_singleton.mp sign)
    · cases sign
  · exact .inr (.inr (digits c (List.mem_append_left _ front)))
  · split at rest
    · cases rest
    · obtain point | digit := List.mem_cons.mp rest
      · exact .inr (.inl point)
      · exact .inr (.inr (digits c (List.mem_append_right _ digit)))

theorem readPlain?_minus (cs : List Char) : readPlain? ('-' :: cs) =
    (readDigits ⟨0, 0, false, false⟩ cs).bind fun (mantissa, scale) => ofParts? true mantissa scale := rfl

/-- What starts with a digit has no sign. -/
theorem readPlain?_of_isDigit {c : Char} (h : c.isDigit = true) (cs : List Char) : readPlain? (c :: cs) =
    (readDigits ⟨0, 0, false, false⟩ (c :: cs)).bind fun (mantissa, scale) =>
      ofParts? false mantissa scale := by
  unfold readPlain?
  split
  · next negative digits split =>
    split at split
    · next minus => cases minus; exact absurd h (by decide)
    · next plus => cases plus; exact absurd h (by decide)
    · cases split; rfl

/-- A decimal is read back from its text. -/
theorem read?_text (d : Decimal) : read? d.text.toList = some d := by
  have plain : splitExponent d.text.toList = (d.text.toList, none) := by
    have none : d.text.toList.dropWhile (fun c => c != 'e' && c != 'E') = [] := by
      apply List.dropWhile_eq_nil_iff.mpr
      intro c member
      obtain rfl | rfl | digit := mem_text member
      · rfl
      · rfl
      · have other : ∀ e : Char, e.isDigit = false → c ≠ e := by
          rintro e no rfl
          rw [no] at digit
          exact Bool.false_ne_true digit
        rw [Bool.and_eq_true, bne_iff_ne, bne_iff_ne]
        exact ⟨other 'e' rfl, other 'E' rfl⟩
    rw [splitExponent, none]
  have parts : ofParts? d.negative d.mantissa d.scale = some d := by
    rw [ofParts?, dif_pos ⟨d.small, d.scaleLe⟩]
    obtain ⟨negative, mantissa, scale, small, scaleLe, signed⟩ := d
    cases negative with
    | false => rfl
    | true =>
        have nonzero : (mantissa != 0) = true := bne_iff_ne.mpr (signed rfl)
        simp only [nonzero, Bool.and_true]
  have unsigned := readDigits_text d
  rw [read?, plain]
  change readPlain? d.text.toList = some d
  rw [toList_text]
  cases negative : d.negative with
  | true =>
      rw [negative] at parts
      rw [if_pos rfl, List.singleton_append, readPlain?_minus, unsigned, Option.bind_some]
      exact parts
  | false =>
      rw [negative] at parts
      obtain ⟨c, cs, front⟩ := List.exists_cons_of_ne_nil d.length_fraction.2
      have digit : c.isDigit = true := isDigit_of_mem_whole (front ▸ List.mem_cons_self ..)
      rw [front, List.cons_append] at unsigned
      rw [if_neg Bool.false_ne_true, List.nil_append, front, List.cons_append, readPlain?_of_isDigit digit,
        unsigned, Option.bind_some]
      exact parts

end Decimal

end TableMapper.Number
