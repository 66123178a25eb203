import TableMapper.Number.Binary

/-! # The fewest digits that read back

A finite number is shown with as few digits as name it: of all decimals that round to it, one with the
fewest digits, and of those the one nearest to it. The interval of reals that round to a number ends
halfway to its neighbours; the ends belong to it when its significand is even.
-/

namespace TableMapper.Number

/-- A decimal: digits `d₁d₂…` and a place, standing for `0.d₁d₂… * 10 ^ place`. -/
structure Decimals where
  digits : List Char
  place : Int
  deriving DecidableEq, Repr

namespace Shortest

/-- A positive number with the ends of its interval, as numerators over one denominator. -/
structure Interval where
  low : Nat
  value : Nat
  high : Nat
  den : Nat
  closed : Bool

/-- The interval of a finite positive code. Below a power of two the neighbour is half as far. -/
def interval (f : BinaryFormat) (code : Nat) : Interval :=
  let (significand, shift) := f.parts code
  let unit := Nat.pow 2 shift
  let below := if significand = Nat.pow 2 f.fractionBits ∧ 0 < shift then unit else 2 * unit
  { low := 4 * significand * unit - below
    value := 4 * significand * unit
    high := 4 * significand * unit + 2 * unit
    den := 4 * Nat.pow 2 f.leastUnit
    closed := significand % 2 == 0 }

/-- Whether a fraction `num / (den * scale)` lies in the interval. -/
def Interval.holds (i : Interval) (num scale : Nat) : Bool :=
  if i.closed then i.low * scale ≤ num && num ≤ i.high * scale
  else i.low * scale < num && num < i.high * scale

/-- The place of a positive fraction: the least `p` with `num / den < 10 ^ p`. -/
def place (num den : Nat) : Int :=
  if den ≤ num then digitCount (num / den)
  else 1 - (digitCount ((den + num - 1) / num - 1) : Int)

/-- The candidate with `n` digits, if one of the two neighbours of the value on the grid of that many
digits lies in the interval. -/
def candidate (i : Interval) (p : Int) (n : Nat) : Option Nat :=
  let exponent := p - n
  -- a grid point `q` stands for `q * up / down`
  let up := Nat.pow 10 exponent.toNat
  let down := Nat.pow 10 (-exponent).toNat
  let floor := i.value * down / (i.den * up)
  let above := floor + 1
  let holds := fun q => i.holds (q * up * i.den) down
  let left := i.value * down - floor * up * i.den
  let right := above * up * i.den - i.value * down
  match holds floor && 0 < floor, holds above with
  | true, true => some (if right < left then above else floor)
  | true, false => some floor
  | false, true => some above
  | false, false => none

/-- The digits of a number without the zeros at their end. -/
def stripZeros (cs : List Char) : List Char := (cs.reverse.dropWhile (· == '0')).reverse

/-- The decimal with the fewest digits, starting with `n` of them. -/
def search (i : Interval) (p : Int) : Nat → Nat → Decimals
  | 0, _ => ⟨['0'], 1⟩
  | fuel + 1, n =>
    match candidate i p n with
    | some q =>
      let ds := digits q
      ⟨stripZeros ds, p + (ds.length - n : Int)⟩
    | none => search i p fuel (n + 1)

end Shortest

namespace Binary

variable {f : BinaryFormat}

/-- The shortest decimal that reads back as a finite number's magnitude; zero is the digit `0`. -/
def shortest (x : Binary f) : Decimals :=
  if x.code = 0 then ⟨['0'], 1⟩
  else
    let i := Shortest.interval f x.code
    Shortest.search i (Shortest.place i.value i.den) 20 1

end Binary

/-- A decimal without an exponent: digits, a point where one is needed, zeros to fill up. -/
def Decimals.positional (d : Decimals) : List Char :=
  let n : Int := d.digits.length
  if d.place ≤ 0 then ['0', '.'] ++ List.replicate (-d.place).toNat '0' ++ d.digits
  else if n ≤ d.place then d.digits ++ List.replicate (d.place - n).toNat '0'
  else d.digits.take d.place.toNat ++ '.' :: d.digits.drop d.place.toNat

/-- A floating-point number as text: the shortest digits, never an exponent. -/
def Binary.text {f : BinaryFormat} (x : Binary f) : String :=
  if x.isNaN then "NaN"
  else
    let magnitude := if x.isInfinite then "inf".toList else x.shortest.positional
    String.ofList (if x.negative then '-' :: magnitude else magnitude)

end TableMapper.Number
