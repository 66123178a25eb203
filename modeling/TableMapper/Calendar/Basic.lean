import TableMapper.Number.Digits

/-! # Dates and times of day

Days of the Gregorian calendar, extended backwards, and times of day to the nanosecond. A leap second
is the second before it with a billion nanoseconds or more, so that it sorts behind that second. A time may
leap behind any second, but clocks are read only with leap seconds at the end of a minute.
-/

namespace TableMapper

/-- Whether a year has 366 days. -/
def isLeapYear (year : Int) : Bool := year % 4 == 0 && (year % 100 != 0 || year % 400 == 0)

/-- How many days a month has. -/
def daysInMonth (year : Int) (month : Nat) : Nat :=
  match month with
  | 2 => if isLeapYear year then 29 else 28
  | 4 | 6 | 9 | 11 => 30
  | _ => 31

/-- A year, month and day name a day when the calendar has it. -/
def IsDay (year : Int) (month day : Nat) : Prop :=
  -262143 ≤ year ∧ year ≤ 262142 ∧ 1 ≤ month ∧ month ≤ 12 ∧ 1 ≤ day ∧ day ≤ daysInMonth year month

instance (year : Int) (month day : Nat) : Decidable (IsDay year month day) :=
  inferInstanceAs (Decidable (_ ∧ _))

/-- A day of the calendar. -/
structure Date where
  year : Int
  month : Nat
  day : Nat
  isDay : IsDay year month day
  deriving DecidableEq

instance : Repr Date := ⟨fun d _ => repr (d.year, d.month, d.day)⟩

/-- The day of a year, month and day, if the calendar has it. -/
def Date.ofParts? (year : Int) (month day : Nat) : Option Date :=
  if h : IsDay year month day then some ⟨year, month, day, h⟩ else none

/-- The first day of 1970. -/
def Date.epoch : Date := ⟨1970, 1, 1, by decide⟩

def nanosPerSecond : Nat := 1000000000

/-- An hour, minute, second and nanosecond name a time of day when they are in range. From a billion
nanoseconds on it is in the leap second behind the second. -/
def IsTime (hour minute second nano : Nat) : Prop :=
  hour < 24 ∧ minute < 60 ∧ second < 60 ∧ nano < 2 * nanosPerSecond

instance (hour minute second nano : Nat) : Decidable (IsTime hour minute second nano) :=
  inferInstanceAs (Decidable (_ ∧ _))

/-- A time of day. -/
structure Time where
  hour : Nat
  minute : Nat
  second : Nat
  nano : Nat
  isTime : IsTime hour minute second nano
  deriving DecidableEq

instance : Repr Time := ⟨fun t _ => repr (t.hour, t.minute, t.second, t.nano)⟩

/-- A clock goes on to a leap second at the end of a minute alone. -/
def LeapsAtEnd (second nano : Nat) : Prop := nanosPerSecond ≤ nano → second = 59

instance (second nano : Nat) : Decidable (LeapsAtEnd second nano) := inferInstanceAs (Decidable (_ → _))

/-- The time of a clock reading, if it names one. -/
def Time.ofParts? (hour minute second nano : Nat) : Option Time :=
  if h : IsTime hour minute second nano ∧ LeapsAtEnd second nano then some ⟨hour, minute, second, nano, h.1⟩
  else none

/-- The first moment of a day. -/
def Time.midnight : Time := ⟨0, 0, 0, 0, by decide⟩

/-- A time of a day. -/
structure DateTime where
  date : Date
  time : Time
  deriving DecidableEq, Repr

namespace Date

/-- The year in four digits; outside of 0 to 9999 with its sign. -/
def yearText (year : Int) : String :=
  if 0 ≤ year ∧ year ≤ 9999 then Number.paddedText 4 year.toNat
  else (if year < 0 then "-" else "+") ++ Number.paddedText 4 year.natAbs

/-- A day as year, month and day with dashes between them. -/
def text (d : Date) : String :=
  yearText d.year ++ "-" ++ Number.paddedText 2 d.month ++ "-" ++ Number.paddedText 2 d.day

end Date

namespace Time

/-- The fraction of a second in 3, 6 or 9 digits, as many as it needs; nothing if it is zero. -/
def fractionText (nano : Nat) : String :=
  if nano = 0 then ""
  else if nano % 1000000 = 0 then "." ++ Number.paddedText 3 (nano / 1000000)
  else if nano % 1000 = 0 then "." ++ Number.paddedText 6 (nano / 1000)
  else "." ++ Number.paddedText 9 nano

/-- A time as hours, minutes and seconds; a leap second counts as the second after its own. -/
def text (t : Time) : String :=
  Number.paddedText 2 t.hour ++ ":" ++ Number.paddedText 2 t.minute ++ ":" ++
    Number.paddedText 2 (t.second + t.nano / nanosPerSecond) ++ fractionText (t.nano % nanosPerSecond)

end Time

/-- A day and a time with a blank between them. -/
def DateTime.text (t : DateTime) : String := t.date.text ++ " " ++ t.time.text

end TableMapper
