/-! # Decimal digits

Natural numbers as runs of ASCII digits, most significant first.
-/

namespace TableMapper.Number

/-- The value of an ASCII digit. -/
def digitValue (c : Char) : Nat := c.toNat - '0'.toNat

/-- The number that a run of digits denotes. -/
def ofDigits (cs : List Char) : Nat := cs.foldl (fun n c => n * 10 + digitValue c) 0

/-- The digits of a number, without leading zeros. -/
def digits (n : Nat) : List Char := Nat.toDigits 10 n

/-- How many digits a number has; zero has one. -/
def digitCount (n : Nat) : Nat := (digits n).length

/-- Reads a number from a run of digits that is not empty and holds nothing else. -/
def readNat? (cs : List Char) : Option Nat :=
  if cs.isEmpty || !cs.all Char.isDigit then none else some (ofDigits cs)

/-- Reads a number that may have a sign in front. -/
def readInt? : List Char → Option Int
  | '+' :: cs => (readNat? cs).map Int.ofNat
  | '-' :: cs => (readNat? cs).map fun n => -(n : Int)
  | cs => (readNat? cs).map Int.ofNat

/-- The digits of a number, filled up with zeros on the left to a width. -/
def padded (width n : Nat) : List Char :=
  List.replicate (width - digitCount n) '0' ++ digits n

/-- A number as text, filled up with zeros on the left to a width. -/
def paddedText (width n : Nat) : String := String.ofList (padded width n)

end TableMapper.Number
