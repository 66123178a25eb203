/-! # Base sixteen

Bytes and numbers as digits of base sixteen, in lower case. Main statement: bytes are read back from their
digits.
-/

namespace TableMapper.Text

/-- The value of a digit, in either case. -/
def hexValue? (c : Char) : Option Nat :=
  if '0' ≤ c ∧ c ≤ '9' then some (c.toNat - '0'.toNat)
  else if 'a' ≤ c ∧ c ≤ 'f' then some (c.toNat - 'a'.toNat + 10)
  else if 'A' ≤ c ∧ c ≤ 'F' then some (c.toNat - 'A'.toNat + 10)
  else none

namespace Hex

/-- The digits of a number, at least as many as given. -/
def ofNat (width n : Nat) : List Char :=
  let ds := Nat.toDigits 16 n
  List.replicate (width - ds.length) '0' ++ ds

/-- Reads a number. -/
def readNat? (cs : List Char) : Option Nat :=
  (cs.mapM hexValue?).map fun ds => ds.foldl (fun n d => n * 16 + d) 0

/-- The two digits of a byte. -/
def ofByte (b : UInt8) : List Char := [Nat.digitChar (b.toNat / 16), Nat.digitChar (b.toNat % 16)]

/-- The digits of bytes. -/
def ofBytes (bs : List UInt8) : List Char := bs.flatMap ofByte

/-- Reads bytes of two digits each. -/
def readBytes? : List Char → Option (List UInt8)
  | [] => some []
  | a :: b :: rest => do
    let high ← hexValue? a
    let low ← hexValue? b
    let bytes ← readBytes? rest
    pure (UInt8.ofNat (high * 16 + low) :: bytes)
  | [_] => none

theorem hexValue_digitChar : ∀ n : Fin 16, hexValue? (Nat.digitChar n) = some n.val := by decide

theorem readBytes_ofBytes (bs : List UInt8) : readBytes? (ofBytes bs) = some bs := by
  induction bs with
  | nil => rfl
  | cons b bs ih =>
    have size : b.toNat < 256 := b.toNat_lt
    have high := hexValue_digitChar ⟨b.toNat / 16, by omega⟩
    have low := hexValue_digitChar ⟨b.toNat % 16, by omega⟩
    have whole : b.toNat / 16 * 16 + b.toNat % 16 = b.toNat := by omega
    have step : readBytes? (ofBytes (b :: bs)) =
        some (UInt8.ofNat (b.toNat / 16 * 16 + b.toNat % 16) :: bs) := by
      simp only [ofBytes] at ih
      simp [ofBytes, ofByte, readBytes?, high, low, ih]
    rw [step, whole, UInt8.ofNat_toNat]

/-- The digits of bytes as text. -/
def encode (b : ByteArray) : String := String.ofList (ofBytes b.toList)

/-- Reads bytes from text. -/
def decode? (s : String) : Option ByteArray := (readBytes? s.toList).map fun bs => ⟨bs.toArray⟩

end Hex

end TableMapper.Text
