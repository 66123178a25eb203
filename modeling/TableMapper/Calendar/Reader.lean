import TableMapper.Calendar.Basic
import TableMapper.Text.Basic

/-! # Reading dates and times

Days are read as `year-month-day`, times as `hour:minute:second` with an optional fraction. Blanks may
stand before each number, and numbers may have fewer digits than they are written with; nothing may
follow.
-/

namespace TableMapper.Calendar

open Text (isBlank)

/-- A step of a reader: what it read and the rest of the text. -/
abbrev Step (α : Type) := Option (α × List Char)

def readDigits (most : Nat) (cs : List Char) : Step Nat :=
  let run := (cs.take most).takeWhile Char.isDigit
  if run.isEmpty then none else some (Number.ofDigits run, cs.drop run.length)

/-- Reads a number of at most two digits, after blanks. -/
def readShort (cs : List Char) : Step Nat := readDigits 2 (cs.dropWhile isBlank)

/-- Reads a year, after blanks: at most four digits, or a sign and any number of digits. -/
def readYear (cs : List Char) : Step Int :=
  match cs.dropWhile isBlank with
  | '-' :: rest => (readDigits rest.length rest).map fun (n, rest) => (-(n : Int), rest)
  | '+' :: rest => (readDigits rest.length rest).map fun (n, rest) => ((n : Int), rest)
  | rest => (readDigits 4 rest).map fun (n, rest) => ((n : Int), rest)

/-- Passes over one given character. -/
def expect (c : Char) : List Char → Option (List Char)
  | d :: rest => if d = c then some rest else none
  | [] => none

/-- Reads an optional fraction of a second in nanoseconds. Digits after the ninth are dropped. -/
def readFraction : List Char → Step Nat
  | '.' :: rest =>
    let run := rest.takeWhile Char.isDigit
    if run.isEmpty then none
    else
      let nine := run.take 9
      some (Number.ofDigits nine * Nat.pow 10 (9 - nine.length), rest.dropWhile Char.isDigit)
  | cs => some (0, cs)

/-- Reads a day at the start of a text. -/
def readDate (cs : List Char) : Option (Date × List Char) := do
  let (year, cs) ← readYear cs
  let cs ← expect '-' cs
  let (month, cs) ← readShort cs
  let cs ← expect '-' cs
  let (day, cs) ← readShort cs
  let date ← Date.ofParts? year month day
  pure (date, cs)

/-- The time of day that hours, minutes, seconds and nanoseconds name; second 60 is a leap second. -/
def timeOfClock (hour minute second nano : Nat) : Option Time :=
  if second = 60 then Time.ofParts? hour minute 59 (nanosPerSecond + nano)
  else Time.ofParts? hour minute second nano

/-- Reads a time of day at the start of a text. -/
def readTime (cs : List Char) : Option (Time × List Char) := do
  let (hour, cs) ← readShort cs
  let cs ← expect ':' cs
  let (minute, cs) ← readShort cs
  let cs ← expect ':' cs
  let (second, cs) ← readShort cs
  let (nano, cs) ← readFraction cs
  let time ← timeOfClock hour minute second nano
  pure (time, cs)

/-- Keeps what was read if it was all of the text. -/
def whole : Step α → Option α
  | some (a, []) => some a
  | _ => none

end Calendar

/-- Reads a day. -/
def Date.read? (s : String) : Option Date := Calendar.whole (Calendar.readDate s.toList)

/-- Reads a time of day. -/
def Time.read? (s : String) : Option Time := Calendar.whole (Calendar.readTime s.toList)

/-- Reads a day and a time of day; blanks between them are passed over. -/
def DateTime.read? (s : String) : Option DateTime := do
  let (date, cs) ← Calendar.readDate s.toList
  let time ← Calendar.whole (Calendar.readTime cs)
  pure ⟨date, time⟩

end TableMapper
