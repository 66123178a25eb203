import TableMapper.Proofs.Wire.RoundTrip

/-! # Values received

What comes over the wire is a value of the library, or a day that the calendar does not have, or a clock reading
that is no time of day. A value that was received is sent as what it was received from, so nothing of it is lost.
Main statement: `ofValue_toValue`.
-/

namespace TableMapper.WireValue

/-- The parts of a value are in the ranges that the driver has for them. -/
def InRange : WireValue → Prop
  | .int n => IntKind.int64.Fits n
  | .uint n => IntKind.uint64.Fits n
  | .date year month day hour minute second micro =>
      IntKind.uint16.Fits year ∧ (∀ part ∈ [month, day, hour, minute, second], IntKind.uint8.Fits part) ∧
        IntKind.uint32.Fits micro
  | .time _ days hour minute second micro =>
      IntKind.uint32.Fits days ∧ (∀ part ∈ [hour, minute, second], IntKind.uint8.Fits part) ∧
        IntKind.uint32.Fits micro
  | .null | .bytes _ | .single _ | .double _ => True

/-- A clock reading names a time of day. Only in second 59 may the microseconds go on for a leap second. -/
def IsClock (hour minute second micro : Nat) : Prop :=
  hour < 24 ∧ minute < 60 ∧ second < 60 ∧ (micro < 1000000 ∨ micro < 2000000 ∧ second = 59)

/-- A day that there is not, or a time that is no time of day. -/
def Unreadable : WireValue → Prop
  | .date year month day hour minute second micro =>
      ¬ IsDay year month day ∨ ¬ IsClock hour minute second micro
  | .time negative days hour minute second micro =>
      negative = true ∨ 0 < days ∨ 24 ≤ hour ∨ ¬ IsClock hour minute second micro
  | .null | .bytes _ | .int _ | .uint _ | .single _ | .double _ => False

instance : (m : WireValue) → Decidable m.InRange
  | .int _ | .uint _ => inferInstanceAs (Decidable (_ ∧ _))
  | .date .. | .time .. => inferInstanceAs (Decidable (_ ∧ _))
  | .null | .bytes _ | .single _ | .double _ => .isTrue trivial

instance (hour minute second micro : Nat) : Decidable (IsClock hour minute second micro) :=
  inferInstanceAs (Decidable (_ ∧ _))

/-- What becomes of a value that is received: it is sent as what it came from, or it is refused as unreadable. -/
def Inverted (m : WireValue) : Prop :=
  (∃ v, m.toValue = .ok v ∧ ofValue v = m ∧ ¬ m.Unreadable) ∨ ∃ e, m.toValue = .error e ∧ m.Unreadable

/-! ## Each shape of value -/

theorem inverted_bytes (b : ByteArray) : (bytes b).Inverted := by
  left
  cases read : String.fromUTF8? b with
  | none => exact ⟨.bytes b, by rw [toValue, read], rfl, id⟩
  | some s => exact ⟨.text s, by rw [toValue, read], congrArg bytes (Value.text?_bytes_eq_some_iff.mp read).symm, id⟩

theorem inverted_int {n : Int} (range : (int n).InRange) : (int n).Inverted :=
  .inl ⟨_, wholeValue_of_fits range, rfl, id⟩

theorem inverted_uint {n : Nat} (range : (uint n).InRange) : (uint n).Inverted :=
  .inl ⟨_, wholeValue_of_fits range, congrArg uint (Int.toNat_natCast n), id⟩

theorem isTime_micro_iff {hour minute second micro : Nat} :
    IsTime hour minute second (micro * 1000) ∧ LeapsAtEnd second (micro * 1000) ↔
      IsClock hour minute second micro := by
  unfold IsTime LeapsAtEnd IsClock nanosPerSecond
  omega

/-- A clock reading becomes a time of day that reads the same. -/
theorem clock_of_isClock {hour minute second micro : Nat} (reading : IsClock hour minute second micro) :
    ∃ t : Time, clock hour minute second micro = .ok t ∧ t.hour = hour ∧ t.minute = minute ∧ t.second = second ∧
      t.nano / 1000 = micro := by
  have named := isTime_micro_iff.mpr reading
  refine ⟨⟨hour, minute, second, micro * 1000, named.1⟩, ?_, rfl, rfl, rfl, Nat.mul_div_cancel micro (by decide)⟩
  have made : Time.ofParts? hour minute second (micro * 1000) = some ⟨hour, minute, second, micro * 1000, named.1⟩ :=
    dif_pos named
  rw [clock, made]

theorem clock_of_not_isClock {hour minute second micro : Nat} (none : ¬ IsClock hour minute second micro) :
    ∃ e, clock hour minute second micro = .error e := by
  have refused : Time.ofParts? hour minute second (micro * 1000) = Option.none :=
    dif_neg fun named => none (isTime_micro_iff.mp named)
  exact ⟨_, by rw [clock, refused]⟩

theorem inverted_time (negative : Bool) (days hour minute second micro : Nat) :
    (time negative days hour minute second micro).Inverted := by
  by_cases outside : negative = true ∨ 0 < days ∨ 24 ≤ hour
  · refine .inr ⟨_, by rw [toValue, if_pos outside], ?_⟩
    obtain negative | days | hour := outside
    · exact .inl negative
    · exact .inr (.inl days)
    · exact .inr (.inr (.inl hour))
  · by_cases reading : IsClock hour minute second micro
    · obtain ⟨t, named, rfl, rfl, rfl, rfl⟩ := clock_of_isClock reading
      simp only [not_or, Bool.not_eq_true, Nat.not_lt, Nat.le_zero] at outside
      obtain ⟨rfl, rfl, early⟩ := outside
      refine .inl ⟨.time t, ?_, rfl, ?_⟩
      · rw [toValue, if_neg (by simpa using early), named]
      · rintro (no | no | late | no)
        · cases no
        · cases no
        · exact early late
        · exact no reading
    · obtain ⟨e, refused⟩ := clock_of_not_isClock reading
      exact .inr ⟨e, by rw [toValue, if_neg outside, refused], .inr (.inr (.inr reading))⟩

/-- A year that the driver can tell apart is the same year after it was sent. -/
theorem year_of_fits {year : Nat} (fits : IntKind.uint16.Fits year) : ((year : Int) % yearLimit).toNat = year := by
  have below : (year : Int) ≤ 65535 := fits.2
  unfold yearLimit
  omega

theorem inverted_date {year month day hour minute second micro : Nat}
    (range : (date year month day hour minute second micro).InRange) :
    (date year month day hour minute second micro).Inverted := by
  by_cases isDay : IsDay year month day
  · have named : Date.ofParts? year month day = some ⟨year, month, day, isDay⟩ := dif_pos isDay
    have same := year_of_fits range.1
    by_cases reading : IsClock hour minute second micro
    · have readable : ¬ (date year month day hour minute second micro).Unreadable := by
        rintro (no | no)
        · exact no isDay
        · exact no reading
      by_cases midnight : hour = 0 ∧ minute = 0 ∧ second = 0 ∧ micro = 0
      · refine .inl ⟨.date ⟨year, month, day, isDay⟩, by simp only [toValue, named, if_pos midnight], ?_, readable⟩
        obtain ⟨rfl, rfl, rfl, rfl⟩ := midnight
        simp only [ofValue, ofDateTime, same]
        rfl
      · obtain ⟨t, told, rfl, rfl, rfl, rfl⟩ := clock_of_isClock reading
        refine .inl ⟨.dateTime ⟨⟨year, month, day, isDay⟩, t⟩, ?_, ?_, readable⟩
        · simp only [toValue, named, if_neg midnight, told]
        · simp only [ofValue, ofDateTime, same]
    · have later : ¬ (hour = 0 ∧ minute = 0 ∧ second = 0 ∧ micro = 0) := by
        rintro ⟨rfl, rfl, rfl, rfl⟩
        exact reading (by decide)
      obtain ⟨e, refused⟩ := clock_of_not_isClock reading
      exact .inr ⟨e, by simp only [toValue, named, if_neg later, refused], .inr reading⟩
  · have none : Date.ofParts? year month day = none := dif_neg isDay
    exact .inr ⟨_, by rw [toValue, none], .inl isDay⟩

theorem inverted {m : WireValue} (range : m.InRange) : m.Inverted := by
  cases m with
  | null => exact .inl ⟨.null, rfl, rfl, id⟩
  | bytes b => exact inverted_bytes b
  | int n => exact inverted_int range
  | uint n => exact inverted_uint range
  | single x => exact .inl ⟨.single x, rfl, rfl, id⟩
  | double x => exact .inl ⟨.double x, rfl, rfl, id⟩
  | date => exact inverted_date range
  | time => exact inverted_time ..

/-- What is received as a value is sent as it was received, and refused is exactly what is unreadable: days that
the calendar does not have, clock readings that are no time of day, and spans of time that are negative, have
days, or last 24 hours or longer. -/
theorem ofValue_toValue {m : WireValue} (range : m.InRange) :
    (∀ v, m.toValue = .ok v → ofValue v = m) ∧ ((∃ e, m.toValue = .error e) ↔ m.Unreadable) := by
  obtain ⟨w, received, sent, readable⟩ | ⟨e, refused, unreadable⟩ := inverted range
  · constructor
    · intro v read
      cases received.symm.trans read
      exact sent
    · refine iff_of_false ?_ readable
      rintro ⟨e, refused⟩
      cases received.symm.trans refused
  · constructor
    · intro v read
      cases refused.symm.trans read
    · exact iff_of_true ⟨e, refused⟩ unreadable

/-- The last microsecond of a leap second comes back from its value, and one more is no time of day. -/
theorem ofValue_toValue_leap_second :
    let last : WireValue := .date 2024 2 29 23 59 59 1999999
    let beyond : WireValue := .date 2024 2 29 23 59 59 2000000
    (last.InRange ∧ beyond.InRange) ∧ (∃ v, last.toValue = .ok v ∧ ofValue v = last) ∧
      ∃ e, beyond.toValue = .error e := by
  have received : (date 2024 2 29 23 59 59 1999999).toValue =
      .ok (.dateTime ⟨⟨2024, 2, 29, by decide⟩, ⟨23, 59, 59, 1999999000, by decide⟩⟩) := by decide
  refine ⟨⟨by decide, by decide⟩, ⟨_, received, (ofValue_toValue (by decide)).1 _ received⟩, ?_⟩
  exact (ofValue_toValue (by decide)).2.mpr (.inr (by decide))

end TableMapper.WireValue
