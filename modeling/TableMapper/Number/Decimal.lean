import TableMapper.Number.Digits

/-! # Exact decimals

A decimal is a whole number of at most 96 bits and a scale of at most 28: how many of its digits stand
after the point. The scale is part of the value, so `1.50` keeps its zero; minus zero is plain zero.
-/

namespace TableMapper.Number

/-- One more than the greatest mantissa. -/
def Decimal.mantissaLimit : Nat := Nat.pow 2 96

/-- The greatest scale. -/
def Decimal.maxScale : Nat := 28

/-- An exact decimal `± mantissa / 10 ^ scale`. -/
structure Decimal where
  negative : Bool
  mantissa : Nat
  scale : Nat
  small : mantissa < Decimal.mantissaLimit
  scaleLe : scale ≤ Decimal.maxScale
  signed : negative = true → mantissa ≠ 0
  deriving DecidableEq

namespace Decimal

instance : Repr Decimal := ⟨fun d _ => repr (d.negative, d.mantissa, d.scale)⟩

/-- The decimal with given parts, if they are in range. -/
def ofParts? (negative : Bool) (mantissa scale : Nat) : Option Decimal :=
  if h : mantissa < mantissaLimit ∧ scale ≤ maxScale then
    some ⟨negative && mantissa != 0, mantissa, scale, h.1, h.2, by simp⟩
  else none

/-- Zero, without digits after the point. -/
def zero : Decimal := ⟨false, 0, 0, by decide, by decide, by simp⟩

/-- A whole number as a decimal, if it is small enough. -/
def ofInt? (n : Int) : Option Decimal := ofParts? (n < 0) n.natAbs 0

/-- The digits of a decimal, with as many after the point as its scale says. -/
def text (d : Decimal) : String :=
  let ds := padded (d.scale + 1) d.mantissa
  let whole := ds.take (ds.length - d.scale)
  let fraction := ds.drop (ds.length - d.scale)
  String.ofList ((if d.negative then ['-'] else []) ++ whole ++ (if d.scale = 0 then [] else '.' :: fraction))

/-- The digits read so far of a decimal. -/
structure Reading where
  mantissa : Nat
  scale : Nat
  /-- Whether the point has been read. -/
  pointed : Bool
  /-- Whether a digit or a separator has been read. -/
  started : Bool

/-- Ends a reading at the first digit for which there is no more room: that digit rounds, half up, and
what follows it is not looked at. -/
def Reading.round (r : Reading) (c : Char) : Option (Nat × Nat) :=
  let up := c.isDigit && 5 ≤ digitValue c
  if !c.isDigit && c != '_' && !(c == '.' && r.pointed) then none
  else if !up then some (r.mantissa, r.scale)
  else if r.mantissa + 1 < mantissaLimit then some (r.mantissa + 1, r.scale)
  else if r.scale = 0 then none
  else some ((r.mantissa + 1 + 4) / 10, r.scale - 1)

/-- Reads the digits of a decimal, after its sign: digits with at most one point among them, and
underscores after the first digit. -/
def readDigits (r : Reading) : List Char → Option (Nat × Nat)
  | [] => if r.started then some (r.mantissa, r.scale) else none
  | c :: cs =>
    if r.pointed && r.started && maxScale ≤ r.scale then r.round c
    else if c.isDigit then
      let next := r.mantissa * 10 + digitValue c
      if next < mantissaLimit then
        readDigits { r with mantissa := next, scale := if r.pointed then r.scale + 1 else 0, started := true } cs
      else if r.pointed then r.round c
      else none
    else if c = '.' ∧ r.pointed = false then readDigits { r with pointed := true } cs
    else if c = '_' ∧ r.started = true then readDigits r cs
    else none

/-- Reads a decimal without exponent: an optional sign and digits. -/
def readPlain? (cs : List Char) : Option Decimal :=
  let (negative, ds) :=
    match cs with
    | '-' :: rest => (true, rest)
    | '+' :: rest => (false, rest)
    | _ => (false, cs)
  (readDigits ⟨0, 0, false, false⟩ ds).bind fun (mantissa, scale) => ofParts? negative mantissa scale

/-- Moves the point of a decimal by an exponent of ten that does not exceed the greatest scale. -/
def shift? (d : Decimal) (negative : Bool) (exponent : Nat) : Option Decimal :=
  if maxScale < exponent then none
  else if negative then ofParts? d.negative d.mantissa (d.scale + exponent)
  else if exponent ≤ d.scale then ofParts? d.negative d.mantissa (d.scale - exponent)
  else ofParts? d.negative (d.mantissa * Nat.pow 10 (exponent - d.scale)) 0

/-- The digits of a text up to the letter of its exponent, and those after it. -/
def splitExponent (cs : List Char) : List Char × Option (List Char) :=
  match cs.dropWhile fun c => c != 'e' && c != 'E' with
  | [] => (cs, none)
  | _ :: exponent => (cs.takeWhile fun c => c != 'e' && c != 'E', some exponent)

/-- An exponent after its letter: a sign, then at least one digit. -/
def readExponent? : List Char → Option (Bool × Nat)
  | '-' :: '+' :: cs => (readNat? cs).map (true, ·)
  | '-' :: cs => (readNat? cs).map (true, ·)
  | '+' :: cs => (readNat? cs).map (false, ·)
  | cs => (readNat? cs).map (false, ·)

/-- Reads a decimal, with or without an exponent. -/
def read? (cs : List Char) : Option Decimal :=
  match splitExponent cs with
  | (plain, none) => readPlain? plain
  | (plain, some exponent) => do
    let d ← readPlain? plain
    let (negative, e) ← readExponent? exponent
    d.shift? negative e

end Decimal

end TableMapper.Number
