import TableMapper.Json.Basic
import TableMapper.Text.Quoted

/-! # JSON as text

The compact form: no blanks, members in the order of their names, only those characters escaped that
have to be.
-/

namespace TableMapper.Json

open Number (Decimals Binary Double)

/-- How a real number is written: with a point always, positional from `0.00001` up to sixteen digits
before the point, else with a signed exponent. -/
def realDigits (d : Decimals) : List Char :=
  let n : Int := d.digits.length
  if -5 < d.place ∧ d.place ≤ 16 then
    if n ≤ d.place then d.positional ++ ['.', '0'] else d.positional
  else
    let exponent := d.place - 1
    let mantissa :=
      match d.digits with
      | [] => []
      | [c] => [c]
      | c :: rest => c :: '.' :: rest
    let sign := if exponent < 0 then '-' else '+'
    mantissa ++ 'e' :: sign :: Number.digits exponent.natAbs

/-- A real number as text. -/
def realText (x : Double) : List Char :=
  (if x.negative then ['-'] else []) ++ realDigits x.shortest

def numberText : JsonNumber → List Char
  | .whole n => (toString n).toList
  | .real x => realText x

/-- A character of a text, escaped where it has to be. -/
def escapeChar (c : Char) : List Char :=
  match c with
  | '"' => ['\\', '"']
  | '\\' => ['\\', '\\']
  | '\n' => ['\\', 'n']
  | '\r' => ['\\', 'r']
  | '\t' => ['\\', 't']
  | '\x08' => ['\\', 'b']
  | '\x0c' => ['\\', 'f']
  | _ =>
    if c.toNat < 0x20 then
      let ds := Text.Quoted.hexDigits c.toNat
      ['\\', 'u'] ++ List.replicate (4 - ds.length) '0' ++ ds
    else [c]

/-- A text between quotes. -/
def quote (s : String) : List Char := '"' :: s.toList.flatMap escapeChar ++ ['"']

mutual

/-- A value in compact form. -/
def print : Json → List Char
  | .null => "null".toList
  | .bool true => "true".toList
  | .bool false => "false".toList
  | .number n => numberText n
  | .text s => quote s
  | .array items => '[' :: printItems items ++ [']']
  | .object members => '\x7b' :: printMembers members ++ ['\x7d']

/-- The items of an array with commas between them. -/
def printItems : List Json → List Char
  | [] => []
  | [item] => print item
  | item :: rest => print item ++ ',' :: printItems rest

/-- The members of an object with commas between them. -/
def printMembers : List (String × Json) → List Char
  | [] => []
  | [(name, value)] => quote name ++ ':' :: print value
  | (name, value) :: rest => quote name ++ ':' :: print value ++ ',' :: printMembers rest

end

/-- A value as compact text. -/
def compact (v : Json) : String := String.ofList (print v)

end TableMapper.Json
