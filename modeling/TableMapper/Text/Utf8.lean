/-! # Bytes as text

Bytes are text when they are well-formed UTF-8. Otherwise the first fault is reported: where it is, and
how many bytes make up the broken sequence, or that the bytes end in the middle of one.
-/

namespace TableMapper.Text.Utf8

/-- What is wrong with bytes that are no text. -/
inductive Fault where
  /-- A sequence of `width` bytes from `index` on starts no character. -/
  | invalid (width index : Nat)
  /-- The bytes end inside the character that starts at `index`. -/
  | incomplete (index : Nat)
  deriving DecidableEq, Repr

/-- The sentence that reports a fault. -/
def Fault.message : Fault → String
  | .invalid width index => s!"invalid utf-8 sequence of {width} bytes from index {index}"
  | .incomplete index => s!"incomplete utf-8 byte sequence from index {index}"

/-- Whether a byte continues a character. -/
def isTail (b : UInt8) : Bool := 0x80 ≤ b && b ≤ 0xBF

/-- How many bytes the character takes that a byte starts, and the least and greatest second byte. -/
def lead (b : UInt8) : Option (Nat × UInt8 × UInt8) :=
  if b < 0x80 then some (1, 0, 0)
  else if 0xC2 ≤ b && b ≤ 0xDF then some (2, 0x80, 0xBF)
  else if b == 0xE0 then some (3, 0xA0, 0xBF)
  else if b == 0xED then some (3, 0x80, 0x9F)
  else if 0xE1 ≤ b && b ≤ 0xEF then some (3, 0x80, 0xBF)
  else if b == 0xF0 then some (4, 0x90, 0xBF)
  else if 0xF1 ≤ b && b ≤ 0xF3 then some (4, 0x80, 0xBF)
  else if b == 0xF4 then some (4, 0x80, 0x8F)
  else none

/-- The first fault of bytes, the next of which stands at `index`. -/
def firstFault (index : Nat) : List UInt8 → Option Fault
  | [] => none
  | b :: rest =>
    match lead b with
    | none => some (.invalid 1 index)
    | some (1, _, _) => firstFault (index + 1) rest
    | some (width, low, high) =>
      match rest with
      | [] => some (.incomplete index)
      | b2 :: rest2 =>
        if b2 < low || high < b2 then some (.invalid 1 index)
        else if width == 2 then firstFault (index + 2) rest2
        else
          match rest2 with
          | [] => some (.incomplete index)
          | b3 :: rest3 =>
            if !isTail b3 then some (.invalid 2 index)
            else if width == 3 then firstFault (index + 3) rest3
            else
              match rest3 with
              | [] => some (.incomplete index)
              | b4 :: rest4 =>
                if !isTail b4 then some (.invalid 3 index) else firstFault (index + 4) rest4

/-- The text of bytes, or the first fault in them. -/
def decode (bytes : ByteArray) : Except Fault String :=
  match String.fromUTF8? bytes with
  | some s => .ok s
  | none => .error ((firstFault 0 bytes.toList).getD (.incomplete 0))

end TableMapper.Text.Utf8
