import TableMapper.Json.Basic
import TableMapper.Text.Hex

/-! # Reading JSON

A document is one value with blanks around it. Arrays and objects nest less than 128 deep. Real numbers
are read by scaling at most 64 bits of digits with a power of ten, so the last bit of a long one may
differ from the nearest.
-/

namespace TableMapper.Json

open Number (Binary Double digitValue)

/-- The blanks that may stand between the parts of a document. -/
def isSpace (c : Char) : Bool := c == ' ' || c == '\n' || c == '\t' || c == '\r'

/-- The text from the next part on. -/
def skipSpace (cs : List Char) : List Char := cs.dropWhile isSpace

/-- One more than the greatest whole number. -/
def wholeLimit : Nat := Nat.pow 2 64

/-- A power of ten, rounded. -/
def powerOfTen (n : Nat) : Double := .ofScientific false 1 n

/-- Scales `x` by a power of ten, in steps that the format can hold; nothing if the result is too
great. -/
def scaleReal : Nat → Double → Int → Option Double
  | 0, _, _ => none
  | fuel + 1, x, exponent =>
    if exponent.natAbs ≤ 308 then
      if 0 ≤ exponent then
        let y := x.mul (powerOfTen exponent.natAbs)
        if y.isInfinite then none else some y
      else some (x.div (powerOfTen exponent.natAbs))
    else if x.code = 0 then some x
    else if 0 ≤ exponent then none
    else scaleReal fuel (x.div (powerOfTen 308)) (exponent + 308)

/-- The real number of a sign, digits and an exponent. -/
def realOfParts (negative : Bool) (significand : Nat) (exponent : Int) : Option JsonNumber :=
  (scaleReal 8 (.nearest false significand 1) exponent).map fun x => .real { x with negative := negative }

/-- Reads the digits of a significand as long as 64 bits hold it: the significand, how many digits it
took, and the rest of the text. -/
def takeSignificand (significand : Nat) (count : Nat) : List Char → Nat × Nat × List Char
  | [] => (significand, count, [])
  | c :: cs =>
    if c.isDigit && significand * 10 + digitValue c < wholeLimit then
      takeSignificand (significand * 10 + digitValue c) (count + 1) cs
    else (significand, count, c :: cs)

/-- Reads the exponent of a real number, after its letter. -/
def readExponent? (negative : Bool) (significand : Nat) (start : Int) (cs : List Char) :
    Option (JsonNumber × List Char) :=
  let (down, ds) :=
    match cs with
    | '+' :: rest => (false, rest)
    | '-' :: rest => (true, rest)
    | _ => (false, cs)
  let run := ds.takeWhile Char.isDigit
  let rest := ds.dropWhile Char.isDigit
  if run.isEmpty then none
  else
    let e := Number.ofDigits run
    if e < Nat.pow 2 31 then
      let exponent := if down then start - e else start + e
      (realOfParts negative significand exponent).map (·, rest)
    else if significand ≠ 0 ∧ down = false then none
    else some (.real (.nearest negative 0 1), rest)

/-- Reads what may follow the digits of a real number: an exponent or nothing. -/
def readScale? (negative : Bool) (significand : Nat) (exponent : Int) (cs : List Char) :
    Option (JsonNumber × List Char) :=
  match cs with
  | 'e' :: rest => readExponent? negative significand exponent rest
  | 'E' :: rest => readExponent? negative significand exponent rest
  | _ => (realOfParts negative significand exponent).map (·, cs)

/-- Reads the digits after the point. Digits for which there is no room are passed over. -/
def readFraction? (negative : Bool) (significand : Nat) (exponent : Int) (cs : List Char) :
    Option (JsonNumber × List Char) :=
  match cs with
  | c :: _ =>
    if c.isDigit then
      let (significand, count, rest) := takeSignificand significand 0 cs
      readScale? negative significand (exponent - count) (rest.dropWhile Char.isDigit)
    else none
  | [] => none

/-- Reads what may follow the whole part of a number. `beyond` counts the digits that 64 bits have no
room for; without any, and without point and exponent, the number is whole. -/
def readAfterWhole? (negative : Bool) (significand beyond : Nat) (cs : List Char) :
    Option (JsonNumber × List Char) :=
  match cs with
  | '.' :: rest => readFraction? negative significand beyond rest
  | 'e' :: rest => readExponent? negative significand beyond rest
  | 'E' :: rest => readExponent? negative significand beyond rest
  | _ =>
    if 0 < beyond then (realOfParts negative significand beyond).map (·, cs)
    else if !negative then some (.whole significand, cs)
    else if 0 < significand ∧ significand ≤ Nat.pow 2 63 then some (.whole (-(significand : Int)), cs)
    else some (.real (.nearest true significand 1), cs)

/-- Reads a number without its sign. A leading zero stands alone. -/
def readNumber? (negative : Bool) (cs : List Char) : Option (JsonNumber × List Char) :=
  match cs with
  | '0' :: rest =>
    match rest with
    | c :: _ => if c.isDigit then none else readAfterWhole? negative 0 0 rest
    | [] => readAfterWhole? negative 0 0 rest
  | c :: _ =>
    if c.isDigit then
      let (significand, _, rest) := takeSignificand 0 0 cs
      readAfterWhole? negative significand (rest.takeWhile Char.isDigit).length
        (rest.dropWhile Char.isDigit)
    else none
  | [] => none

/-- Reads the four digits of a numbered character. -/
def readHex4? : List Char → Option (Nat × List Char)
  | a :: b :: c :: d :: rest => do
    let a ← Text.hexValue? a
    let b ← Text.hexValue? b
    let c ← Text.hexValue? c
    let d ← Text.hexValue? d
    pure (((a * 16 + b) * 16 + c) * 16 + d, rest)
  | _ => none

/-- Reads a numbered character; two halves make up one beyond the first plane. -/
def readNumbered? (cs : List Char) : Option (Char × List Char) := do
  let (n, rest) ← readHex4? cs
  if 0xD800 ≤ n ∧ n < 0xDC00 then
    match rest with
    | '\\' :: 'u' :: rest => do
      let (m, rest) ← readHex4? rest
      if 0xDC00 ≤ m ∧ m < 0xE000 then
        pure (Char.ofNat (0x10000 + (n - 0xD800) * 0x400 + (m - 0xDC00)), rest)
      else none
    | _ => none
  else if 0xDC00 ≤ n ∧ n < 0xE000 then none
  else pure (Char.ofNat n, rest)

/-- The character that a letter after a backslash stands for. -/
def unescape? : Char → Option Char
  | '"' => some '"'
  | '\\' => some '\\'
  | '/' => some '/'
  | 'b' => some '\x08'
  | 'f' => some '\x0c'
  | 'n' => some '\n'
  | 'r' => some '\r'
  | 't' => some '\t'
  | _ => none

/-- Reads a text up to its closing quote; `sofar` holds what was read, backwards. -/
def readText? : Nat → List Char → List Char → Option (String × List Char)
  | 0, _, _ => none
  | fuel + 1, sofar, cs =>
    match cs with
    | [] => none
    | '"' :: rest => some (String.ofList sofar.reverse, rest)
    | '\\' :: 'u' :: rest => do
      let (c, rest) ← readNumbered? rest
      readText? fuel (c :: sofar) rest
    | '\\' :: c :: rest => do
      let d ← unescape? c
      readText? fuel (d :: sofar) rest
    | c :: rest => if c.toNat < 0x20 then none else readText? fuel (c :: sofar) rest

mutual

/-- Reads a value. `depth` is how many arrays and objects may still open. -/
def readValue? : Nat → Nat → List Char → Option (Json × List Char)
  | 0, _, _ => none
  | fuel + 1, depth, cs =>
    match skipSpace cs with
    | 'n' :: 'u' :: 'l' :: 'l' :: rest => some (.null, rest)
    | 't' :: 'r' :: 'u' :: 'e' :: rest => some (.bool true, rest)
    | 'f' :: 'a' :: 'l' :: 's' :: 'e' :: rest => some (.bool false, rest)
    | '"' :: rest => (readText? (rest.length + 1) [] rest).map fun (s, rest) => (.text s, rest)
    | '-' :: rest => (readNumber? true rest).map fun (n, rest) => (.number n, rest)
    | '[' :: rest =>
      match depth with
      | 0 => none
      | depth + 1 =>
        match skipSpace rest with
        | ']' :: rest => some (.array [], rest)
        | rest => (readItems? fuel depth rest).map fun (items, rest) => (.array items, rest)
    | '\x7b' :: rest =>
      match depth with
      | 0 => none
      | depth + 1 =>
        match skipSpace rest with
        | '\x7d' :: rest => some (ofMembers [], rest)
        | rest => (readMembers? fuel depth rest).map fun (members, rest) => (ofMembers members, rest)
    | rest => (readNumber? false rest).map fun (n, rest) => (.number n, rest)

/-- Reads the items of an array up to its closing bracket. -/
def readItems? : Nat → Nat → List Char → Option (List Json × List Char)
  | 0, _, _ => none
  | fuel + 1, depth, cs => do
    let (item, rest) ← readValue? fuel depth cs
    match skipSpace rest with
    | ',' :: rest =>
      let (items, rest) ← readItems? fuel depth rest
      pure (item :: items, rest)
    | ']' :: rest => pure ([item], rest)
    | _ => none

/-- Reads the members of an object up to its closing brace. -/
def readMembers? : Nat → Nat → List Char → Option (List (String × Json) × List Char)
  | 0, _, _ => none
  | fuel + 1, depth, cs => do
    match skipSpace cs with
    | '"' :: rest =>
      let (name, rest) ← readText? (rest.length + 1) [] rest
      match skipSpace rest with
      | ':' :: rest =>
        let (value, rest) ← readValue? fuel depth rest
        match skipSpace rest with
        | ',' :: rest =>
          let (members, rest) ← readMembers? fuel depth rest
          pure ((name, value) :: members, rest)
        | '\x7d' :: rest => pure ([(name, value)], rest)
        | _ => none
      | _ => none
    | _ => none

end

/-- How deep arrays and objects may nest. -/
def maxDepth : Nat := 127

/-- Reads a document. -/
def parse? (s : String) : Option Json :=
  match readValue? (2 * s.length + 2) maxDepth s.toList with
  | some (v, rest) => if (skipSpace rest).isEmpty then some v else none
  | none => none

end TableMapper.Json
