import Mathlib.Data.List.TakeWhile
import Mathlib.Order.Monotone.Basic
import Mathlib.Tactic.Ring
import TableMapper.Number.Shortest
import TableMapper.Proofs.Number.Digits

/-! # The shortest digits of a floating-point number

The intervals of different magnitudes do not meet: where one ends the next begins, and only one of the two
holds the point between them. The search ends with a point in the interval of its number, so that the digits
which are shown name the number.
-/

namespace TableMapper.Number

namespace Shortest

variable {f : BinaryFormat}

/-! ## Intervals -/

theorem parts_of_zero_exponent {code : Nat} (h : code < 2 ^ f.fractionBits) : f.parts code = (code, 0) := by
  have none : code / Nat.pow 2 f.fractionBits = 0 := Nat.div_eq_of_lt h
  have all : code % Nat.pow 2 f.fractionBits = code := Nat.mod_eq_of_lt h
  simp only [BinaryFormat.parts, none, all, if_true]

theorem parts_of_exponent {exponent fraction : Nat} (h : fraction < 2 ^ f.fractionBits) :
    f.parts ((exponent + 1) * 2 ^ f.fractionBits + fraction) = (2 ^ f.fractionBits + fraction, exponent) := by
  have positive : 0 < 2 ^ f.fractionBits := Nat.two_pow_pos _
  have quotient : ((exponent + 1) * 2 ^ f.fractionBits + fraction) / Nat.pow 2 f.fractionBits = exponent + 1 := by
    change _ / 2 ^ f.fractionBits = _
    rw [Nat.add_comm, Nat.add_mul_div_right _ _ positive, Nat.div_eq_of_lt h, Nat.zero_add]
  have rest : ((exponent + 1) * 2 ^ f.fractionBits + fraction) % Nat.pow 2 f.fractionBits = fraction := by
    change _ % 2 ^ f.fractionBits = _
    rw [Nat.add_comm, Nat.add_mul_mod_self_right, Nat.mod_eq_of_lt h]
  simp only [BinaryFormat.parts, quotient, rest, Nat.add_eq_zero_iff, Nat.one_ne_zero, and_false, if_false,
    Nat.add_sub_cancel]
  rfl

/-- A code has no exponent, or one that is not zero, and a fraction. -/
theorem code_cases (f : BinaryFormat) (code : Nat) :
    code < 2 ^ f.fractionBits ∨ ∃ exponent fraction, fraction < 2 ^ f.fractionBits ∧
      code = (exponent + 1) * 2 ^ f.fractionBits + fraction := by
  obtain small | large := Nat.lt_or_ge code (2 ^ f.fractionBits)
  · exact .inl small
  · have positive : 0 < 2 ^ f.fractionBits := Nat.two_pow_pos _
    have some : 0 < code / 2 ^ f.fractionBits := Nat.div_pos large positive
    refine .inr ⟨code / 2 ^ f.fractionBits - 1, code % 2 ^ f.fractionBits, Nat.mod_lt _ positive, ?_⟩
    rw [Nat.sub_add_cancel some, Nat.div_add_mod']

theorem interval_of_zero_exponent {code : Nat} (h : code < 2 ^ f.fractionBits) :
    interval f code = ⟨4 * code - 2, 4 * code, 4 * code + 2, 4 * 2 ^ f.leastUnit, code % 2 == 0⟩ := by
  simp only [interval, parts_of_zero_exponent h, Nat.lt_irrefl, and_false, if_false]
  rw [show Nat.pow 2 0 = 1 from rfl, Nat.mul_one, Nat.mul_one]
  rfl

/-- Below a power of two the neighbour is half as far. -/
theorem interval_of_exponent {exponent fraction : Nat} (h : fraction < 2 ^ f.fractionBits) :
    interval f ((exponent + 1) * 2 ^ f.fractionBits + fraction) =
      ⟨4 * (2 ^ f.fractionBits + fraction) * 2 ^ exponent -
          (if fraction = 0 ∧ 0 < exponent then 2 ^ exponent else 2 * 2 ^ exponent),
        4 * (2 ^ f.fractionBits + fraction) * 2 ^ exponent,
        4 * (2 ^ f.fractionBits + fraction) * 2 ^ exponent + 2 * 2 ^ exponent, 4 * 2 ^ f.leastUnit,
        (2 ^ f.fractionBits + fraction) % 2 == 0⟩ := by
  have least : 2 ^ f.fractionBits + fraction = Nat.pow 2 f.fractionBits ↔ fraction = 0 := by
    change 2 ^ f.fractionBits + fraction = 2 ^ f.fractionBits ↔ fraction = 0
    omega
  simp only [interval, parts_of_exponent h, least]
  rfl

/-- An interval ends where the next one begins. -/
theorem high_eq_low_succ (f : BinaryFormat) (code : Nat) :
    (interval f code).high = (interval f (code + 1)).low := by
  obtain small | ⟨exponent, fraction, small, rfl⟩ := code_cases f code
  · rw [interval_of_zero_exponent small]
    obtain more | last := Nat.lt_or_ge (code + 1) (2 ^ f.fractionBits)
    · rw [interval_of_zero_exponent more]
      change 4 * code + 2 = 4 * (code + 1) - 2
      omega
    · have next : code + 1 = (0 + 1) * 2 ^ f.fractionBits + 0 := by omega
      rw [next, interval_of_exponent (Nat.two_pow_pos _)]
      change 4 * code + 2 = 4 * (2 ^ f.fractionBits + 0) * 2 ^ 0 - (if 0 = 0 ∧ 0 < 0 then 2 ^ 0 else 2 * 2 ^ 0)
      rw [if_neg (by decide)]
      omega
  · rw [interval_of_exponent small]
    obtain more | last := Nat.lt_or_ge (fraction + 1) (2 ^ f.fractionBits)
    · rw [Nat.add_assoc, interval_of_exponent more]
      change 4 * (2 ^ f.fractionBits + fraction) * 2 ^ exponent + 2 * 2 ^ exponent =
        4 * (2 ^ f.fractionBits + (fraction + 1)) * 2 ^ exponent -
          (if fraction + 1 = 0 ∧ 0 < exponent then 2 ^ exponent else 2 * 2 ^ exponent)
      rw [if_neg fun both => Nat.succ_ne_zero fraction both.1]
      have step : 4 * (2 ^ f.fractionBits + (fraction + 1)) * 2 ^ exponent =
          4 * (2 ^ f.fractionBits + fraction) * 2 ^ exponent + 4 * 2 ^ exponent := by ring
      rw [step]
      omega
    · have next : (exponent + 1) * 2 ^ f.fractionBits + fraction + 1 =
          (exponent + 1 + 1) * 2 ^ f.fractionBits + 0 := by
        rw [Nat.add_mul (exponent + 1), Nat.one_mul]
        omega
      rw [next, interval_of_exponent (Nat.two_pow_pos _)]
      change 4 * (2 ^ f.fractionBits + fraction) * 2 ^ exponent + 2 * 2 ^ exponent =
        4 * (2 ^ f.fractionBits + 0) * 2 ^ (exponent + 1) -
          (if 0 = 0 ∧ 0 < exponent + 1 then 2 ^ (exponent + 1) else 2 * 2 ^ (exponent + 1))
      rw [if_pos ⟨rfl, Nat.succ_pos exponent⟩]
      have full : fraction = 2 ^ f.fractionBits - 1 := by omega
      have step : 4 * (2 ^ f.fractionBits + 0) * 2 ^ (exponent + 1) =
          4 * (2 ^ f.fractionBits + fraction) * 2 ^ exponent + 4 * 2 ^ exponent := by
        have twice : 2 * 2 ^ f.fractionBits = 2 ^ f.fractionBits + fraction + 1 := by omega
        calc 4 * (2 ^ f.fractionBits + 0) * 2 ^ (exponent + 1)
            = 4 * (2 * 2 ^ f.fractionBits) * 2 ^ exponent := by ring
          _ = 4 * (2 ^ f.fractionBits + fraction) * 2 ^ exponent + 4 * 2 ^ exponent := by
              rw [twice]
              ring
      rw [step, Nat.pow_succ]
      omega

theorem low_lt_high (f : BinaryFormat) (code : Nat) : (interval f code).low < (interval f code).high := by
  obtain small | ⟨exponent, fraction, small, rfl⟩ := code_cases f code
  · rw [interval_of_zero_exponent small]
    change 4 * code - 2 < 4 * code + 2
    omega
  · rw [interval_of_exponent small]
    have positive : 0 < 2 ^ exponent := Nat.two_pow_pos _
    exact Nat.lt_of_le_of_lt (Nat.sub_le _ _) (Nat.lt_add_of_pos_right (by omega))

theorem high_strictMono (f : BinaryFormat) : StrictMono fun code => (interval f code).high :=
  strictMono_nat_of_lt_succ fun code => by
    rw [high_eq_low_succ]
    exact low_lt_high f (code + 1)

/-- An interval holds its ends when its code is even. -/
theorem closed_interval (h : 0 < f.fractionBits) (code : Nat) : (interval f code).closed = (code % 2 == 0) := by
  obtain small | ⟨exponent, fraction, small, rfl⟩ := code_cases f code
  · rw [interval_of_zero_exponent small]
  · obtain ⟨bits, same⟩ := Nat.exists_eq_add_of_lt h
    rw [interval_of_exponent small]
    have even : 2 ^ f.fractionBits = 2 * 2 ^ bits := by rw [same, Nat.zero_add, Nat.pow_succ]; ring
    have evens : (exponent + 1) * (2 * 2 ^ bits) = 2 * ((exponent + 1) * 2 ^ bits) := by ring
    change ((2 ^ f.fractionBits + fraction) % 2 == 0) = _
    rw [even, evens, Nat.mul_add_mod, Nat.mul_add_mod]

theorem Interval.holds_iff {i : Interval} {num scale : Nat} :
    i.holds num scale = true ↔
      i.low * scale ≤ num ∧ num ≤ i.high * scale ∧
        (i.closed = true ∨ i.low * scale < num ∧ num < i.high * scale) := by
  unfold Interval.holds
  cases i.closed with
  | true =>
      simp only [if_true, Bool.and_eq_true, decide_eq_true_eq, true_or, and_true]
  | false =>
      simp only [Bool.false_eq_true, if_false, Bool.and_eq_true, decide_eq_true_eq, false_or]
      omega

/-- The same fraction, written in another way, lies in the same intervals. -/
theorem Interval.holds_of_same_fraction {i : Interval} {num scale num' scale' : Nat} (positive : 0 < scale)
    (same : num * scale' = num' * scale) (h : i.holds num scale = true) (positive' : 0 < scale') :
    i.holds num' scale' = true := by
  rw [Interval.holds_iff] at h ⊢
  have below : ∀ {a : Nat}, a * scale ≤ num → a * scale' ≤ num' := fun {a} le =>
    Nat.le_of_mul_le_mul_right (by
      calc a * scale' * scale = a * scale * scale' := by ring
        _ ≤ num * scale' := Nat.mul_le_mul_right scale' le
        _ = num' * scale := same) positive
  have above : ∀ {a : Nat}, num ≤ a * scale → num' ≤ a * scale' := fun {a} le =>
    Nat.le_of_mul_le_mul_right (by
      calc num' * scale = num * scale' := same.symm
        _ ≤ a * scale * scale' := Nat.mul_le_mul_right scale' le
        _ = a * scale' * scale := by ring) positive
  have strictlyBelow : ∀ {a : Nat}, a * scale < num → a * scale' < num' := fun {a} lt =>
    Nat.lt_of_mul_lt_mul_right (a := scale) (by
      calc a * scale' * scale = a * scale * scale' := by ring
        _ < num * scale' := Nat.mul_lt_mul_of_pos_right lt positive'
        _ = num' * scale := same)
  have strictlyAbove : ∀ {a : Nat}, num < a * scale → num' < a * scale' := fun {a} lt =>
    Nat.lt_of_mul_lt_mul_right (a := scale) (by
      calc num' * scale = num * scale' := same.symm
        _ < a * scale * scale' := Nat.mul_lt_mul_of_pos_right lt positive'
        _ = a * scale' * scale := by ring)
  exact ⟨below h.1, above h.2.1, h.2.2.imp_right fun strict => ⟨strictlyBelow strict.1, strictlyAbove strict.2⟩⟩

/-- No fraction lies in the intervals of two codes. -/
theorem not_holds_of_lt (h : 0 < f.fractionBits) {code code' : Nat} (lt : code < code') {num scale : Nat}
    (positive : 0 < scale) (held : (interval f code).holds num scale = true) :
    (interval f code').holds num scale = false := by
  refine Bool.eq_false_iff.2 fun held' => ?_
  obtain ⟨-, below, closed⟩ := Interval.holds_iff.1 held
  obtain ⟨above, -, closed'⟩ := Interval.holds_iff.1 held'
  obtain ⟨last, rfl⟩ : ∃ last, code' = last + 1 := ⟨code' - 1, by omega⟩
  have ordered : (interval f code).high ≤ (interval f last).high :=
    (high_strictMono f).monotone (Nat.le_of_lt_succ lt)
  rw [← high_eq_low_succ] at above closed'
  have meet := Nat.mul_le_mul_right scale ordered
  -- the fraction is the end of the one interval and the start of the other
  have ends : (interval f code).high = (interval f last).high :=
    Nat.eq_of_mul_eq_mul_right positive (by omega)
  obtain rfl := (high_strictMono f).injective ends
  rw [closed_interval h] at closed closed'
  simp only [beq_iff_eq] at closed closed'
  omega

theorem eq_of_holds (h : 0 < f.fractionBits) {code code' num scale : Nat} (positive : 0 < scale)
    (held : (interval f code).holds num scale = true) (held' : (interval f code').holds num scale = true) :
    code = code' := by
  obtain lt | equal | gt := Nat.lt_trichotomy code code'
  · exact absurd held' (by rw [not_holds_of_lt h lt positive held]; exact Bool.false_ne_true)
  · exact equal
  · exact absurd held (by rw [not_holds_of_lt h gt positive held']; exact Bool.false_ne_true)

/-! ## The search -/

/-- A candidate lies in the interval. -/
theorem holds_of_candidate {i : Interval} {p : Int} {n q : Nat} (found : candidate i p n = some q) :
    i.holds (q * 10 ^ (p - n).toNat * i.den) (10 ^ (-(p - n)).toNat) = true := by
  unfold candidate at found
  simp only at found
  split at found
  · next floor above =>
      rw [Bool.and_eq_true] at floor
      obtain rfl := Option.some.inj found
      split
      · exact above
      · exact floor.1
  · next floor above =>
      rw [Bool.and_eq_true] at floor
      obtain rfl := Option.some.inj found
      exact floor.1
  · next floor above =>
      obtain rfl := Option.some.inj found
      exact above
  · exact nomatch found

/-- The search ends at a candidate, if there is one among the lengths it looks at. -/
theorem exists_search {i : Interval} {p : Int} {fuel start m : Nat} (after : start ≤ m)
    (within : m < start + fuel) (some : candidate i p m ≠ none) :
    ∃ n q, candidate i p n = .some q ∧
      search i p fuel start = ⟨stripZeros (digits q), p + ((digits q).length - n : Int)⟩ := by
  induction fuel generalizing start with
  | zero => omega
  | succ fuel ih =>
      rw [search]
      cases found : candidate i p start with
      | some q => exact ⟨start, q, found, rfl⟩
      | none =>
          have other : start ≠ m := fun same => some (same ▸ found)
          exact ih (by omega) (by omega)

/-- A positive fraction has a digit at its place. -/
theorem pow_place_le {num den : Nat} (some : 0 < num) (positive : 0 < den) :
    10 ^ (place num den - 1).toNat * den ≤ num * 10 ^ (1 - place num den).toNat := by
  unfold place
  split
  · next whole =>
      have quotient : 0 < num / den := Nat.div_pos whole positive
      have counted := digitCount_pos (num / den)
      have up : ((digitCount (num / den) : Int) - 1).toNat = digitCount (num / den) - 1 := by omega
      have down : (1 - (digitCount (num / den) : Int)).toNat = 0 := by omega
      rw [up, down, Nat.pow_zero, Nat.mul_one]
      exact Nat.le_trans (Nat.mul_le_mul_right den (pow_digitCount_le quotient)) (Nat.div_mul_le_self num den)
  · next part =>
      -- the denominator holds the numerator `steps` times, the last time perhaps in part
      obtain ⟨steps, counted⟩ : ∃ steps, steps = (den + num - 1) / num := ⟨_, rfl⟩
      have covered : den ≤ num * steps := by
        have behind := Nat.lt_mul_div_succ (den + num - 1) some
        rw [← counted, Nat.mul_succ] at behind
        omega
      have few : steps ≤ 10 ^ digitCount (steps - 1) := by
        have short := lt_pow_digitCount (steps - 1)
        omega
      rw [← counted]
      have up : (1 - (digitCount (steps - 1) : Int) - 1).toNat = 0 := by omega
      have down : (1 - (1 - (digitCount (steps - 1) : Int))).toNat = digitCount (steps - 1) := by omega
      rw [up, down, Nat.pow_zero, Nat.one_mul]
      exact Nat.le_trans covered (Nat.mul_le_mul_left num few)

/-- The parts of an interval: the significand, with one bit more than the fraction, times a unit. -/
theorem exists_significand (f : BinaryFormat) {code : Nat} (some : 0 < code) :
    ∃ significand unit, 0 < significand ∧ significand < 2 * 2 ^ f.fractionBits ∧ 0 < unit ∧
      (interval f code).value = 4 * significand * unit ∧
      (interval f code).high = 4 * significand * unit + 2 * unit ∧
      (interval f code).low < (interval f code).high := by
  have ordered := low_lt_high f code
  obtain small | ⟨exponent, fraction, small, rfl⟩ := code_cases f code
  · refine ⟨code, 1, some, Nat.lt_of_lt_of_le small (by omega), Nat.one_pos, ?_, ?_, ordered⟩
    all_goals
      rw [interval_of_zero_exponent small]
      simp only [Nat.mul_one]
  · refine ⟨2 ^ f.fractionBits + fraction, 2 ^ exponent, by omega, by omega, Nat.two_pow_pos _, ?_, ?_, ordered⟩
    all_goals rw [interval_of_exponent small]

theorem low_le_value (f : BinaryFormat) (code : Nat) : (interval f code).low ≤ (interval f code).value :=
  Nat.sub_le _ _

theorem den_pos (f : BinaryFormat) (code : Nat) : 0 < (interval f code).den :=
  Nat.mul_pos (by decide) (Nat.two_pow_pos _)

/-- Eighteen digits are enough for significands below fifty million billions. -/
theorem candidate_ne_none (small : 2 * 2 ^ f.fractionBits ≤ 5 * 10 ^ 16) {code : Nat} (some : 0 < code) :
    candidate (interval f code) (place (interval f code).value (interval f code).den) 18 ≠ none := by
  obtain ⟨significand, unit, positive, bounded, unitPos, value, high, -⟩ := exists_significand f some
  have low := low_le_value f code
  have denPos := den_pos f code
  have valuePos : 0 < (interval f code).value := by
    rw [value]
    exact Nat.mul_pos (Nat.mul_pos (by decide) positive) unitPos
  obtain ⟨i, made⟩ : ∃ i, i = interval f code := ⟨_, rfl⟩
  rw [← made] at value high low denPos valuePos ⊢
  obtain ⟨p, placed⟩ : ∃ p, p = place i.value i.den := ⟨_, rfl⟩
  have digit := pow_place_le valuePos denPos
  rw [← placed] at digit ⊢
  obtain ⟨up, upward⟩ : ∃ up, up = 10 ^ (p - (18 : Nat)).toNat := ⟨_, rfl⟩
  obtain ⟨down, downward⟩ : ∃ down, down = 10 ^ (-(p - (18 : Nat))).toNat := ⟨_, rfl⟩
  have upPos : 0 < up := upward ▸ Nat.pow_pos (by decide)
  have downPos : 0 < down := downward ▸ Nat.pow_pos (by decide)
  -- the grid is finer than the half of the interval above the value
  have fine : up * i.den < 2 * unit * down := by
    have shift : up * 10 ^ 17 * 10 ^ (1 - p).toNat = 10 ^ (p - 1).toNat * down := by
      rw [upward, downward, ← Nat.pow_add, ← Nat.pow_add, ← Nat.pow_add]
      congr 1
      omega
    refine Nat.lt_of_mul_lt_mul_right (a := 10 ^ 17 * 10 ^ (1 - p).toNat) ?_
    calc up * i.den * (10 ^ 17 * 10 ^ (1 - p).toNat)
        = up * 10 ^ 17 * 10 ^ (1 - p).toNat * i.den := by ring
      _ = 10 ^ (p - 1).toNat * i.den * down := by
          rw [shift]
          ring
      _ ≤ i.value * 10 ^ (1 - p).toNat * down := Nat.mul_le_mul_right down digit
      _ = 4 * significand * (unit * 10 ^ (1 - p).toNat * down) := by
          rw [value]
          ring
      _ < 2 * 10 ^ 17 * (unit * 10 ^ (1 - p).toNat * down) :=
          Nat.mul_lt_mul_of_pos_right (by omega)
            (Nat.mul_pos (Nat.mul_pos unitPos (Nat.pow_pos (by decide))) downPos)
      _ = 2 * unit * down * (10 ^ 17 * 10 ^ (1 - p).toNat) := by ring
  obtain ⟨floor, rounded⟩ : ∃ floor, floor = i.value * down / (i.den * up) := ⟨_, rfl⟩
  have gridPos : 0 < i.den * up := Nat.mul_pos denPos upPos
  have under : floor * (i.den * up) ≤ i.value * down := rounded ▸ Nat.div_mul_le_self _ _
  have beyond : i.value * down < (floor + 1) * (i.den * up) := by
    rw [Nat.mul_comm (floor + 1), rounded]
    exact Nat.lt_mul_div_succ _ gridPos
  have holds : i.holds ((floor + 1) * up * i.den) down = true := by
    have grid : (floor + 1) * up * i.den = (floor + 1) * (i.den * up) := by ring
    have lower : i.low * down < (floor + 1) * up * i.den :=
      Nat.lt_of_le_of_lt (Nat.mul_le_mul_right down low) (grid ▸ beyond)
    have upper : (floor + 1) * up * i.den < i.high * down := by
      have next : (floor + 1) * up * i.den = floor * (i.den * up) + up * i.den := by ring
      have top : i.high * down = i.value * down + 2 * unit * down := by
        rw [high, value]
        ring
      omega
    exact Interval.holds_iff.2 ⟨lower.le, upper.le, .inr ⟨lower, upper⟩⟩
  rw [rounded, upward, downward] at holds
  unfold candidate
  dsimp only
  split
  · exact Option.some_ne_none _
  · exact Option.some_ne_none _
  · exact Option.some_ne_none _
  · next _ above => exact absurd (above.symm.trans holds) Bool.false_ne_true

/-- Stripped zeros stand for a power of ten. -/
theorem exists_stripZeros (cs : List Char) :
    ∃ zeros, cs.length = (stripZeros cs).length + zeros ∧
      ofDigits cs = ofDigits (stripZeros cs) * 10 ^ zeros := by
  obtain ⟨stripped, cut⟩ : ∃ stripped, stripped = (cs.reverse.takeWhile (· == '0')).reverse := ⟨_, rfl⟩
  have parts : stripZeros cs ++ stripped = cs := by
    rw [stripZeros, cut, ← List.reverse_append, List.takeWhile_append_dropWhile, List.reverse_reverse]
  have zeros : stripped = List.replicate stripped.length '0' := by
    refine List.eq_replicate_of_mem fun c member => ?_
    rw [cut, List.mem_reverse] at member
    exact beq_iff_eq.1 (List.all_eq_true.1 List.all_takeWhile c member)
  refine ⟨stripped.length, ?_, ?_⟩
  · rw [← List.length_append, parts]
  · have denoted := ofDigits_append (stripZeros cs) stripped
    rw [parts, zeros, ofDigits_replicate_zero, ← zeros] at denoted
    rw [denoted, Nat.add_zero, Nat.mul_comm]

theorem isDigit_of_mem_stripZeros {n : Nat} {c : Char} (h : c ∈ stripZeros (digits n)) : c.isDigit = true := by
  refine isDigit_of_mem_digits (n := n) (List.mem_reverse.1 ?_)
  exact List.dropWhile_subset _ (List.mem_reverse.1 h)

theorem isDigit_of_mem_search {i : Interval} {p : Int} {fuel n : Nat} {c : Char}
    (h : c ∈ (search i p fuel n).digits) : c.isDigit = true := by
  induction fuel generalizing n with
  | zero => exact List.mem_singleton.1 h ▸ rfl
  | succ fuel ih =>
      rw [search] at h
      split at h
      · exact isDigit_of_mem_stripZeros h
      · exact ih h

end Shortest

/-! ## Reading digits back -/

namespace Decimals

/-- The number that the digits of a decimal make, without regard to the point. -/
def numerator (d : Decimals) : Nat := ofDigits d.digits * 10 ^ (d.place - d.digits.length).toNat

/-- How many digits of a decimal stand behind the point. -/
def scale (d : Decimals) : Nat := (d.digits.length - d.place).toNat

/-- The digits of a positional text make the numerator, and those behind the point count the scale. -/
theorem read_positional {d : Decimals} (digits : ∀ c ∈ d.digits, c.isDigit = true) :
    ofDigits (d.positional.filter Char.isDigit) = d.numerator ∧
      (d.positional.dropWhile Char.isDigit).length - 1 = d.scale := by
  have zeros : ∀ k, ∀ c ∈ List.replicate k '0', c.isDigit = true :=
    fun k c member => List.eq_of_mem_replicate member ▸ rfl
  -- digits in front of a point, and digits behind it
  have pointed : ∀ front behind : List Char, (∀ c ∈ front, c.isDigit = true) →
      (∀ c ∈ behind, c.isDigit = true) →
      (front ++ '.' :: behind).filter Char.isDigit = front ++ behind ∧
        ((front ++ '.' :: behind).dropWhile Char.isDigit).length - 1 = behind.length := by
    intro front behind before after
    constructor
    · rw [List.filter_append, List.filter_cons_of_neg (by decide), List.filter_eq_self.2 before,
        List.filter_eq_self.2 after]
    · rw [List.dropWhile_append_of_pos before, List.dropWhile_cons_of_neg (by decide), List.length_cons,
        Nat.add_sub_cancel]
  unfold positional numerator scale
  simp only
  split
  · next small =>
      have leading : ∀ c ∈ ['0'], c.isDigit = true := zeros 1
      have trailing : ∀ c ∈ List.replicate (-d.place).toNat '0' ++ d.digits, c.isDigit = true :=
        fun c member => (List.mem_append.1 member).elim (zeros _ c) (digits c)
      obtain ⟨number, count⟩ := pointed ['0'] _ leading trailing
      have unshifted : (d.place - d.digits.length).toNat = 0 := by omega
      constructor
      · refine (congrArg ofDigits number).trans ?_
        rw [unshifted, ofDigits_append, ofDigits_append, ofDigits_replicate_zero, Nat.pow_zero, Nat.mul_one]
        simp only [show ofDigits ['0'] = 0 from rfl, Nat.mul_zero, Nat.zero_add]
      · refine count.trans ?_
        rw [List.length_append, List.length_replicate]
        omega
  · split
    · next large =>
        have all : ∀ c ∈ d.digits ++ List.replicate (d.place - d.digits.length).toNat '0',
            c.isDigit = true :=
          fun c member => (List.mem_append.1 member).elim (digits c) (zeros _ c)
        constructor
        · rw [List.filter_eq_self.2 all, ofDigits_append, ofDigits_replicate_zero, List.length_replicate,
            Nat.add_zero, Nat.mul_comm]
        · rw [List.dropWhile_eq_nil_iff.2 all, List.length_nil]
          omega
    · next middle =>
        obtain ⟨number, count⟩ := pointed (d.digits.take d.place.toNat) (d.digits.drop d.place.toNat)
          (fun c member => digits c (List.mem_of_mem_take member))
          (fun c member => digits c (List.mem_of_mem_drop member))
        have unshifted : (d.place - d.digits.length).toNat = 0 := by omega
        constructor
        · rw [number, List.take_append_drop, unshifted, Nat.pow_zero, Nat.mul_one]
        · rw [count, List.length_drop]
          omega

/-- A positional text has digits and perhaps a point. -/
theorem not_mem_positional {d : Decimals} (digits : ∀ c ∈ d.digits, c.isDigit = true) {c : Char}
    (digit : c.isDigit = false) (point : c ≠ '.') : c ∉ d.positional := by
  have absent : c ∉ d.digits := fun member => Bool.false_ne_true (digit.symm.trans (digits c member))
  have nonzero : c ≠ '0' := fun zero => Bool.false_ne_true (digit.symm.trans (zero ▸ rfl))
  have zeros : ∀ k, c ∉ List.replicate k '0' := fun k member => nonzero (List.eq_of_mem_replicate member)
  unfold positional
  simp only
  split
  · simp only [List.mem_append, List.mem_cons, List.not_mem_nil, or_false, not_or]
    exact ⟨⟨⟨nonzero, point⟩, zeros _⟩, absent⟩
  · split
    · simp only [List.mem_append, not_or]
      exact ⟨absent, zeros _⟩
    · simp only [List.mem_append, List.mem_cons, not_or]
      exact ⟨fun member => absent (List.mem_of_mem_take member), point,
        fun member => absent (List.mem_of_mem_drop member)⟩

end Decimals

namespace Binary

variable {f : BinaryFormat}

theorem isDigit_of_mem_shortest {x : Binary f} {c : Char} (h : c ∈ x.shortest.digits) : c.isDigit = true := by
  unfold shortest at h
  split at h
  · exact List.mem_singleton.1 h ▸ rfl
  · exact Shortest.isDigit_of_mem_search h

/-- The digits that are shown of a number lie in its interval. -/
theorem holds_shortest (small : 2 * 2 ^ f.fractionBits ≤ 5 * 10 ^ 16) {x : Binary f} (some : 0 < x.code) :
    (Shortest.interval f x.code).holds (x.shortest.numerator * (Shortest.interval f x.code).den)
      (10 ^ x.shortest.scale) = true := by
  obtain ⟨i, made⟩ : ∃ i, i = Shortest.interval f x.code := ⟨_, rfl⟩
  obtain ⟨p, placed⟩ : ∃ p, p = Shortest.place i.value i.den := ⟨_, rfl⟩
  have enough : Shortest.candidate i p 18 ≠ none := by
    rw [placed, made]
    exact Shortest.candidate_ne_none small some
  have shown : x.shortest = Shortest.search i p 20 1 := by
    rw [shortest, if_neg (Nat.pos_iff_ne_zero.1 some), placed, made]
  obtain ⟨n, q, found, ended⟩ : ∃ n q, Shortest.candidate i p n = .some q ∧ Shortest.search i p 20 1 = _ :=
    Shortest.exists_search (by decide) (by decide) enough
  obtain ⟨zeros, length, number⟩ := Shortest.exists_stripZeros (digits q)
  rw [ofDigits_digits] at number
  rw [← made]
  refine Shortest.Interval.holds_of_same_fraction (Nat.pow_pos (by decide)) ?_
    (Shortest.holds_of_candidate found) (Nat.pow_pos (by decide))
  -- the digits are those of the candidate, as many places up as zeros were stripped
  have shift : zeros + (p - n).toNat + x.shortest.scale =
      (x.shortest.place - x.shortest.digits.length).toNat + (-(p - n)).toNat := by
    rw [Decimals.scale, shown, ended]
    simp only
    omega
  have digits' : ofDigits x.shortest.digits * 10 ^ zeros = q := by
    rw [shown, ended]
    exact number.symm
  calc q * 10 ^ (p - n).toNat * i.den * 10 ^ x.shortest.scale
      = ofDigits x.shortest.digits * (10 ^ zeros * 10 ^ (p - n).toNat * 10 ^ x.shortest.scale) * i.den := by
        rw [← digits']
        ring
    _ = x.shortest.numerator * i.den * 10 ^ (-(p - n)).toNat := by
        rw [← Nat.pow_add, ← Nat.pow_add, shift, Nat.pow_add, Decimals.numerator]
        ring

/-- Numbers that are shown with the same digits have the same magnitude. -/
theorem code_eq_of_positional_eq (bits : 0 < f.fractionBits) (small : 2 * 2 ^ f.fractionBits ≤ 5 * 10 ^ 16)
    {x y : Binary f} (same : x.shortest.positional = y.shortest.positional) : x.code = y.code := by
  obtain ⟨numberX, scaleX⟩ := Decimals.read_positional fun c => isDigit_of_mem_shortest (x := x) (c := c)
  obtain ⟨numberY, scaleY⟩ := Decimals.read_positional fun c => isDigit_of_mem_shortest (x := y) (c := c)
  rw [same] at numberX scaleX
  have numerators := numberX.symm.trans numberY
  have scales := scaleX.symm.trans scaleY
  have den : ∀ code code', (Shortest.interval f code).den = (Shortest.interval f code').den := fun _ _ => rfl
  -- zero is shown as zero, which lies in the interval of no other number
  have zero : ∀ {x y : Binary f}, x.code = 0 → x.shortest.numerator = y.shortest.numerator → y.code = 0 := by
    intro x y none equal
    refine Nat.eq_zero_of_not_pos fun some => ?_
    have shown : x.shortest.numerator = 0 := by
      rw [shortest, if_pos none]
      rfl
    have held := (Shortest.Interval.holds_iff.1 (holds_shortest small some)).1
    have low : 0 < (Shortest.interval f y.code).low := by
      obtain ⟨last, next⟩ : ∃ last, y.code = last + 1 := ⟨y.code - 1, by omega⟩
      rw [next, ← Shortest.high_eq_low_succ]
      exact Nat.zero_lt_of_lt (Shortest.low_lt_high f last)
    rw [← equal, shown, Nat.zero_mul] at held
    exact Nat.not_le_of_lt (Nat.mul_pos low (Nat.pow_pos (by decide))) held
  obtain none | some := Nat.eq_zero_or_pos x.code
  · rw [none, zero none numerators]
  · obtain none' | some' := Nat.eq_zero_or_pos y.code
    · rw [none', zero none' numerators.symm]
    · have held := holds_shortest small some
      rw [numerators, scales, den x.code y.code] at held
      exact Shortest.eq_of_holds bits (Nat.pow_pos (by decide)) held (holds_shortest small some')

/-- The magnitude of a number as text. -/
def magnitude (x : Binary f) : List Char :=
  if x.isInfinite then "inf".toList else x.shortest.positional

theorem toList_text {x : Binary f} (h : x.isNaN = false) :
    x.text.toList = if x.negative then '-' :: x.magnitude else x.magnitude := by
  rw [text, h, if_neg Bool.false_ne_true, String.toList_ofList]
  rfl

/-- Numbers that are shown alike are equal, unless they are no numbers. -/
theorem text_injective (bits : 0 < f.fractionBits) (small : 2 * 2 ^ f.fractionBits ≤ 5 * 10 ^ 16)
    {x y : Binary f} (hx : x.isNaN = false) (hy : y.isNaN = false) (same : x.text = y.text) : x = y := by
  have unsigned : ∀ x : Binary f, '-' ∉ x.magnitude := by
    intro x
    unfold magnitude
    split
    · decide
    · exact Decimals.not_mem_positional (fun _ => isDigit_of_mem_shortest) (by decide) (by decide)
  have lettered : ∀ x : Binary f, 'i' ∉ x.shortest.positional := fun x =>
    Decimals.not_mem_positional (fun _ => isDigit_of_mem_shortest) (by decide) (by decide)
  have chars := congrArg String.toList same
  rw [toList_text hx, toList_text hy] at chars
  have parts : x.negative = y.negative ∧ x.magnitude = y.magnitude := by
    cases negative : x.negative <;> cases negative' : y.negative <;>
      simp only [negative, negative', if_true, Bool.false_eq_true, if_false] at chars
    · exact ⟨rfl, chars⟩
    · exact absurd (chars ▸ List.mem_cons_self ..) (unsigned x)
    · exact absurd (chars ▸ List.mem_cons_self ..) (unsigned y)
    · exact ⟨rfl, (List.cons.inj chars).2⟩
  have codes : x.code = y.code := by
    have magnitudes := parts.2
    unfold magnitude at magnitudes
    cases infinite : x.isInfinite <;> cases infinite' : y.isInfinite <;>
      simp only [infinite, infinite', if_true, Bool.false_eq_true, if_false] at magnitudes
    · exact code_eq_of_positional_eq bits small magnitudes
    · exact absurd (magnitudes ▸ List.mem_cons_self ..) (lettered x)
    · exact absurd (magnitudes ▸ List.mem_cons_self ..) (lettered y)
    · exact (beq_iff_eq.1 infinite).trans (beq_iff_eq.1 infinite').symm
  obtain ⟨negative, code, inRange⟩ := x
  obtain ⟨rfl, rfl⟩ := And.intro parts.1 codes
  rfl

end Binary

end TableMapper.Number
