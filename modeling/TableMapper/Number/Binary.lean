import TableMapper.Number.Digits

/-! # Binary floating-point numbers

A binary format has a fraction of some bits and an exponent of some bits. A number of the format is a
sign and a magnitude code: codes count the magnitudes upwards from zero, so the order of codes is the
order of numbers, the code after the greatest finite one is infinity, and all above it are no numbers.
Every operation here is exact rational arithmetic followed by one rounding to nearest, ties to even.
-/

namespace TableMapper.Number

/-- A binary interchange format: how many bits the fraction and the exponent take. -/
structure BinaryFormat where
  fractionBits : Nat
  exponentBits : Nat
  deriving DecidableEq, Repr

namespace BinaryFormat

/-- The format of 32 bits. -/
def single : BinaryFormat := ⟨23, 8⟩

/-- The format of 64 bits. -/
def double : BinaryFormat := ⟨52, 11⟩

/-- The least positive magnitude is two to the power of minus this. -/
def leastUnit (f : BinaryFormat) : Nat := Nat.pow 2 (f.exponentBits - 1) - 1 + f.fractionBits - 1

def infinityCode (f : BinaryFormat) : Nat := (Nat.pow 2 f.exponentBits - 1) * Nat.pow 2 f.fractionBits

/-- The code of the default value that is no number. -/
def nanCode (f : BinaryFormat) : Nat := f.infinityCode + Nat.pow 2 (f.fractionBits - 1)

/-- One more than the greatest code. -/
def codeLimit (f : BinaryFormat) : Nat := Nat.pow 2 (f.exponentBits + f.fractionBits)

/-- The significand and the shift of a finite code: the magnitude is `significand * 2 ^ shift` units. -/
def parts (f : BinaryFormat) (code : Nat) : Nat × Nat :=
  let exponent := code / Nat.pow 2 f.fractionBits
  let fraction := code % Nat.pow 2 f.fractionBits
  if exponent = 0 then (fraction, 0) else (Nat.pow 2 f.fractionBits + fraction, exponent - 1)

/-- How many least units a finite code stands for. -/
def units (f : BinaryFormat) (code : Nat) : Nat :=
  let (significand, shift) := f.parts code
  significand * Nat.pow 2 shift

/-- A quotient rounded to the nearest natural number, a half to the even neighbour. -/
def roundQuotient (num den : Nat) : Nat :=
  let quotient := num / den
  let twice := 2 * (num % den)
  if den < twice ∨ (twice = den ∧ quotient % 2 = 1) then quotient + 1 else quotient

/-- The code of the magnitude nearest to a positive fraction. -/
def nearestCode (f : BinaryFormat) (num den : Nat) : Nat :=
  let scaled := num * Nat.pow 2 f.leastUnit
  let shift := Nat.log2 (scaled / den) + 1 - (f.fractionBits + 1)
  min f.infinityCode (shift * Nat.pow 2 f.fractionBits + roundQuotient scaled (den * Nat.pow 2 shift))

end BinaryFormat

/-- A floating-point number of a format. -/
structure Binary (f : BinaryFormat) where
  negative : Bool
  code : Nat
  inRange : code < f.codeLimit
  deriving DecidableEq

/-- Numbers of 32 bits. -/
abbrev Single := Binary .single

/-- Numbers of 64 bits. -/
abbrev Double := Binary .double

namespace Binary

variable {f g : BinaryFormat}

instance : Repr (Binary f) := ⟨fun x _ => repr (x.negative, x.code)⟩

/-- The number with a sign and a code; a code out of range is cut off. -/
def mk' (negative : Bool) (code : Nat) : Binary f :=
  ⟨negative, code % f.codeLimit, Nat.mod_lt _ (Nat.two_pow_pos _)⟩

/-- The number whose bits, the sign first, are those of a natural number. -/
def ofBits (bits : Nat) : Binary f := mk' (bits / f.codeLimit % 2 == 1) bits

/-- The bits of a number, the sign first. -/
def toBits (x : Binary f) : Nat := (if x.negative then f.codeLimit else 0) + x.code

/-- Whether a number is no number. -/
def isNaN (x : Binary f) : Bool := f.infinityCode < x.code

/-- Whether a number is infinite. -/
def isInfinite (x : Binary f) : Bool := x.code == f.infinityCode

/-- The number with a sign and a magnitude that is nearest to a fraction. -/
def nearest (negative : Bool) (num den : Nat) : Binary f :=
  mk' negative (if num = 0 then 0 else f.nearestCode num den)

def infinity (negative : Bool) : Binary f := mk' negative f.infinityCode

/-- The default value that is no number. -/
def nan (negative : Bool) : Binary f := mk' negative f.nanCode

/-- The number of another format that is nearest. -/
def convert (x : Binary f) : Binary g :=
  if x.isNaN then nan x.negative
  else if x.isInfinite then infinity x.negative
  else nearest x.negative (f.units x.code) (Nat.pow 2 f.leastUnit)

/-- The product of two finite numbers; infinity when it is too great. -/
def mul (x y : Binary f) : Binary f :=
  nearest (x.negative != y.negative) (f.units x.code * f.units y.code) (Nat.pow 2 (2 * f.leastUnit))

/-- The quotient of two finite numbers, the second not zero. -/
def div (x y : Binary f) : Binary f :=
  nearest (x.negative != y.negative) (f.units x.code) (f.units y.code)

/-- The number nearest to `mantissa * 10 ^ exponent`. Exponents so great or so small that the answer
is known are not computed with. -/
def ofScientific (negative : Bool) (mantissa : Nat) (exponent : Int) : Binary f :=
  let magnitude := exponent + digitCount mantissa
  if mantissa = 0 then nearest negative 0 1
  else if magnitude > 400 then infinity negative
  else if magnitude < -400 then nearest negative 0 1
  else if 0 ≤ exponent then nearest negative (mantissa * Nat.pow 10 exponent.toNat) 1
  else nearest negative mantissa (Nat.pow 10 (-exponent).toNat)

/-- An exponent after its letter: an optional sign and at least one digit. -/
def readExponent? (cs : List Char) : Option Int := readInt? cs

/-- Digits with an optional point and an optional exponent: the mantissa and the power of ten. -/
def readMantissa? (cs : List Char) : Option (Nat × Int) :=
  let whole := cs.takeWhile Char.isDigit
  let afterWhole := cs.dropWhile Char.isDigit
  let (fraction, rest) :=
    match afterWhole with
    | '.' :: more => (more.takeWhile Char.isDigit, more.dropWhile Char.isDigit)
    | _ => ([], afterWhole)
  if whole.isEmpty && fraction.isEmpty then none
  else
    let mantissa := ofDigits (whole ++ fraction)
    match rest with
    | [] => some (mantissa, -(fraction.length : Int))
    | c :: more =>
      if c = 'e' ∨ c = 'E' then
        (readExponent? more).map fun e => (mantissa, e - fraction.length)
      else none

/-- Reads a number without its sign. The words for infinity and for no number go in any case. -/
def readMagnitude? (negative : Bool) (cs : List Char) : Option (Binary f) :=
  let word := String.ofList (cs.map Char.toLower)
  if word = "inf" ∨ word = "infinity" then some (infinity negative)
  else if word = "nan" then some (nan negative)
  else (readMantissa? cs).map fun (mantissa, exponent) => ofScientific negative mantissa exponent

/-- Reads a number: the nearest of the format to what the text says. -/
def read? : List Char → Option (Binary f)
  | '-' :: cs => readMagnitude? true cs
  | '+' :: cs => readMagnitude? false cs
  | cs => readMagnitude? false cs

end Binary

end TableMapper.Number
