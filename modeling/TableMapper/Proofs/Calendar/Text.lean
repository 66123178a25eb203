import TableMapper.Calendar.Basic
import TableMapper.Proofs.Number.Decimal

/-! # Days and times as text

Days and times are shown in parts of fixed width, but for the year, which stands first, and the fraction
of a second, which stands last. The texts name every part, but a second with a leap second behind it is shown as
the next.
-/

namespace TableMapper

open Number (padded padded_injective length_padded toList_paddedText isDigit_of_mem_padded
  append_inj_of_break)

/-- Two digits and what stands behind them. -/
theorem padded_two_append {m n : Nat} {rest rest' : List Char} (hm : m < 100) (hn : n < 100)
    (same : padded 2 m ++ rest = padded 2 n ++ rest') : m = n ∧ rest = rest' := by
  have width : (padded 2 m).length = (padded 2 n).length := by
    rw [length_padded hm (by decide), length_padded hn (by decide)]
  obtain ⟨digits, behind⟩ := List.append_inj same width
  exact ⟨padded_injective 2 digits, behind⟩

namespace Date

theorem toList_text (d : Date) :
    d.text.toList = (yearText d.year).toList ++ ('-' :: padded 2 d.month ++ '-' :: padded 2 d.day) := by
  simp only [text, String.toList_append, toList_paddedText, List.append_assoc]
  rfl

theorem toList_yearText (year : Int) :
    (yearText year).toList =
      if 0 ≤ year ∧ year ≤ 9999 then padded 4 year.toNat
      else (if year < 0 then '-' else '+') :: padded 4 year.natAbs := by
  rw [yearText]
  split
  · exact toList_paddedText 4 _
  · rw [String.toList_append, toList_paddedText]
    split <;> rfl

theorem yearText_injective : Function.Injective yearText := by
  have sign : ∀ (c : Char) (n : Nat) (rest : List Char), c.isDigit = false → padded 4 n ≠ c :: rest := by
    intro c n rest other equal
    have digit : c.isDigit = true := isDigit_of_mem_padded (equal ▸ List.mem_cons_self ..)
    rw [other] at digit
    exact Bool.false_ne_true digit
  have signed : ∀ year : Int, (if year < 0 then '-' else '+').isDigit = false := by
    intro year
    split <;> rfl
  intro year year' same
  have chars := congrArg String.toList same
  rw [toList_yearText, toList_yearText] at chars
  by_cases plain : 0 ≤ year ∧ year ≤ 9999 <;> by_cases plain' : 0 ≤ year' ∧ year' ≤ 9999
  · rw [if_pos plain, if_pos plain'] at chars
    have := padded_injective 4 chars
    omega
  · rw [if_pos plain, if_neg plain'] at chars
    exact absurd chars (sign _ _ _ (signed year'))
  · rw [if_neg plain, if_pos plain'] at chars
    exact absurd chars.symm (sign _ _ _ (signed year))
  · rw [if_neg plain, if_neg plain'] at chars
    obtain ⟨signs, digits⟩ := List.cons.inj chars
    have := padded_injective 4 digits
    split at signs <;> split at signs
    · omega
    · exact absurd signs (by decide)
    · exact absurd signs (by decide)
    · omega

/-- Days that are shown alike are equal. -/
theorem text_injective {d e : Date} (same : d.text = e.text) : d = e := by
  have short : ∀ d : Date, d.month < 100 ∧ d.day < 100 := by
    intro d
    obtain ⟨-, -, -, month, -, day⟩ := d.isDay
    have most : daysInMonth d.year d.month ≤ 31 := by
      unfold daysInMonth
      split <;> [split; skip; skip; skip; skip; skip] <;> decide
    omega
  have chars := congrArg String.toList same
  rw [toList_text, toList_text] at chars
  have width : ∀ d : Date, ('-' :: padded 2 d.month ++ '-' :: padded 2 d.day).length = 6 := by
    intro d
    simp only [List.length_append, List.length_cons, length_padded (short d).1 (by decide : 0 < 2),
      length_padded (short d).2 (by decide : 0 < 2)]
  obtain ⟨years, rests⟩ := List.append_inj' chars ((width d).trans (width e).symm)
  have year := yearText_injective (String.toList_injective years)
  obtain ⟨month, days⟩ := padded_two_append (short d).1 (short e).1 (List.cons.inj rests).2
  have day := padded_injective 2 (List.cons.inj days).2
  obtain ⟨y, m, n, isDay⟩ := d
  obtain ⟨rfl, rfl, rfl⟩ := And.intro year (And.intro month day)
  rfl

/-- A day is shown with digits, dashes and perhaps a plus sign. -/
theorem not_mem_text {d : Date} {c : Char} (digit : c.isDigit = false) (signs : c ≠ '-' ∧ c ≠ '+') :
    c ∉ d.text.toList := by
  have absent : ∀ width n, c ∉ padded width n := fun width n member =>
    Bool.false_ne_true (digit.symm.trans (isDigit_of_mem_padded member))
  have year : c ∉ (yearText d.year).toList := by
    rw [toList_yearText]
    split
    · exact absent _ _
    · refine List.not_mem_cons_of_ne_of_not_mem ?_ (absent _ _)
      split
      · exact signs.1
      · exact signs.2
  simp only [toList_text, List.mem_append, List.mem_cons, not_or]
  exact ⟨year, ⟨signs.1, absent _ _⟩, signs.1, absent _ _⟩

end Date

namespace Time

/-- The digits of a fraction of a second, with zeros up to nine of them, denote its nanoseconds. -/
theorem ofDigits_fractionText {nano : Nat} (h : nano < nanosPerSecond) :
    Number.ofDigits ((fractionText nano).toList.drop 1) * 10 ^ (10 - (fractionText nano).toList.length) =
      nano := by
  unfold nanosPerSecond at h
  have shown : ∀ width k, ("." ++ Number.paddedText width k).toList = '.' :: padded width k := by
    intro width k
    rw [String.toList_append, toList_paddedText]
    rfl
  have denoted : ∀ width k, k < 10 ^ width → 0 < width →
      Number.ofDigits (("." ++ Number.paddedText width k).toList.drop 1) *
        10 ^ (10 - ("." ++ Number.paddedText width k).toList.length) = k * 10 ^ (9 - width) := by
    intro width k fits some
    rw [shown, List.drop_succ_cons, List.drop_zero, Number.ofDigits_padded, List.length_cons,
      length_padded fits some, Nat.add_sub_add_right 9 1 width]
  unfold fractionText
  split
  · next zero => exact zero.symm
  · split
    · rw [denoted 3 _ (by omega) (by decide)]
      omega
    · split
      · rw [denoted 6 _ (by omega) (by decide)]
        omega
      · rw [denoted 9 _ (by omega) (by decide)]
        omega

theorem toList_text (t : Time) :
    t.text.toList = padded 2 t.hour ++ ':' :: (padded 2 t.minute ++ ':' ::
      (padded 2 (t.second + t.nano / nanosPerSecond) ++ (fractionText (t.nano % nanosPerSecond)).toList)) := by
  simp only [text, String.toList_append, toList_paddedText, List.append_assoc]
  rfl

/-- Two times that are shown alike: a second with a leap second behind it runs on into the next. -/
structure Alike (t u : Time) : Prop where
  hour : t.hour = u.hour
  minute : t.minute = u.minute
  second : t.second + t.nano / nanosPerSecond = u.second + u.nano / nanosPerSecond
  fraction : t.nano % nanosPerSecond = u.nano % nanosPerSecond

theorem text_eq_iff {t u : Time} : t.text = u.text ↔ t.Alike u := by
  have small : ∀ t : Time, t.hour < 100 ∧ t.minute < 100 ∧ t.second + t.nano / nanosPerSecond < 100 := by
    intro t
    obtain ⟨hour, minute, second, nano⟩ := t.isTime
    unfold nanosPerSecond at nano ⊢
    omega
  constructor
  · intro same
    have chars := congrArg String.toList same
    rw [toList_text, toList_text] at chars
    obtain ⟨hour, minute, second⟩ := small t
    obtain ⟨hour', minute', second'⟩ := small u
    obtain ⟨hours, behindHour⟩ := padded_two_append hour hour' chars
    obtain ⟨minutes, behindMinute⟩ := padded_two_append minute minute' (List.cons.inj behindHour).2
    obtain ⟨seconds, fractions⟩ := padded_two_append second second' (List.cons.inj behindMinute).2
    refine ⟨hours, minutes, seconds, ?_⟩
    rw [← ofDigits_fractionText (Nat.mod_lt t.nano (by decide)), fractions,
      ofDigits_fractionText (Nat.mod_lt u.nano (by decide))]
  · rintro ⟨hour, minute, second, fraction⟩
    rw [text, text, hour, minute, second, fraction]

end Time

/-- Days with times are shown alike when the days are equal and the times are shown alike. -/
theorem DateTime.text_eq_iff {t u : DateTime} : t.text = u.text ↔ t.date = u.date ∧ t.time.Alike u.time := by
  have shown : ∀ t : DateTime, t.text.toList = t.date.text.toList ++ ' ' :: t.time.text.toList := by
    intro t
    simp only [text, String.toList_append, List.append_assoc]
    rfl
  have solid : ∀ d : Date, ∀ c ∈ d.text.toList, (c != ' ') = true := by
    intro d c member
    refine bne_iff_ne.2 fun blank => ?_
    exact Date.not_mem_text rfl (by decide) (blank ▸ member)
  rw [← Time.text_eq_iff]
  constructor
  · intro same
    have chars := congrArg String.toList same
    rw [shown, shown] at chars
    obtain ⟨dates, times⟩ := append_inj_of_break (p := (· != ' ')) (solid t.date) (solid u.date)
      (fun c head => by cases head; rfl) (fun c head => by cases head; rfl) chars
    exact ⟨Date.text_injective (String.toList_injective dates), String.toList_injective (List.cons.inj times).2⟩
  · rintro ⟨dates, times⟩
    rw [text, text, dates, times]

end TableMapper
