/-! # Sets of code points

Character properties are data of a standard: ranges of code points in increasing order. A set is
written as lines of text, two base 36 numbers a range: how far the range starts after the end of the one
before it, and how many code points it holds.
-/

namespace TableMapper.Text

/-- The value of a base 36 digit: `0`-`9`, then `a`-`z`. -/
def base36Digit? (c : Char) : Option Nat :=
  if '0' ≤ c ∧ c ≤ '9' then some (c.toNat - '0'.toNat)
  else if 'a' ≤ c ∧ c ≤ 'z' then some (c.toNat - 'a'.toNat + 10)
  else none

/-- A set of code points, as its ranges `(first, last)` in increasing order. -/
structure CodePoints where
  ranges : List (Nat × Nat)
  deriving Repr

namespace CodePoints

/-- The numbers of a range table, which stand between blanks. -/
def numbers (table : String) : List Nat :=
  (table.splitOn " ").map fun word => word.toList.foldl (fun n c => n * 36 + (base36Digit? c).getD 0) 0

/-- Ranges from gaps and widths, the first gap being counted from `next`. -/
def ofGaps (next : Nat) : List Nat → List (Nat × Nat)
  | gap :: width :: rest => (next + gap, next + gap + width - 1) :: ofGaps (next + gap + width) rest
  | _ => []

/-- Reads a set from the lines of its table, which end with a blank where a number does. -/
def ofTable (lines : List String) : CodePoints := ⟨ofGaps 0 (numbers (String.join lines))⟩

/-- Whether the set holds a character. -/
def contains (s : CodePoints) (c : Char) : Bool :=
  s.ranges.any fun (first, last) => first ≤ c.toNat && c.toNat ≤ last

end CodePoints

/-- The value of the last run that starts at or before `n`, the runs being in increasing order:
bisection between `low`, which starts no later than `n`, and `high`. -/
def lastStart?.go (runs : Array (Nat × α)) (n : Nat) : Nat → Nat → Nat → Option α
  | 0, low, _ => (runs[low]?).map (·.2)
  | fuel + 1, low, high =>
    if low + 1 < high then
      let mid := (low + high) / 2
      match runs[mid]? with
      | some (start, _) =>
        if start ≤ n then lastStart?.go runs n fuel mid high else lastStart?.go runs n fuel low mid
      | none => none
    else (runs[low]?).map (·.2)

/-- The value of the last run that starts at or before `n`. -/
def lastStart? (runs : Array (Nat × α)) (n : Nat) : Option α :=
  lastStart?.go runs n (runs.size + 1) 0 runs.size

end TableMapper.Text
