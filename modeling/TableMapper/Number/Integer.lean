import TableMapper.Number.Digits

/-! # Integers of a width

The eight kinds of integer that columns hold, signed and unsigned, of 8 to 64 bits. An `Integer` is a
number with its kind, so that being in range is part of the type.
-/

namespace TableMapper

/-- A kind of integer: whether it is signed, and its width in bits. -/
inductive IntKind where
  | int8 | int16 | int32 | int64 | uint8 | uint16 | uint32 | uint64
  deriving DecidableEq, Repr

namespace IntKind

/-- Every kind. -/
def all : List IntKind := [int8, int16, int32, int64, uint8, uint16, uint32, uint64]

/-- The short name of a kind, as messages and generated code spell it. -/
def name : IntKind → String
  | int8 => "i8"
  | int16 => "i16"
  | int32 => "i32"
  | int64 => "i64"
  | uint8 => "u8"
  | uint16 => "u16"
  | uint32 => "u32"
  | uint64 => "u64"

/-- Whether the kind holds negative numbers. -/
def signed : IntKind → Bool
  | int8 | int16 | int32 | int64 => true
  | uint8 | uint16 | uint32 | uint64 => false

/-- How many bits a number of the kind takes. -/
def width : IntKind → Nat
  | int8 | uint8 => 8
  | int16 | uint16 => 16
  | int32 | uint32 => 32
  | int64 | uint64 => 64

/-- The least number of the kind. -/
def least (k : IntKind) : Int := if k.signed then -(Nat.pow 2 (k.width - 1) : Nat) else 0

/-- The greatest number of the kind. -/
def greatest (k : IntKind) : Int := (Nat.pow 2 (if k.signed then k.width - 1 else k.width) : Nat) - 1

/-- A number fits a kind when it is no less than its least and no more than its greatest. -/
def Fits (k : IntKind) (n : Int) : Prop := k.least ≤ n ∧ n ≤ k.greatest

instance (k : IntKind) (n : Int) : Decidable (k.Fits n) :=
  inferInstanceAs (Decidable (_ ∧ _))

end IntKind

/-- A number of one of the eight kinds, in the range of its kind. -/
structure Integer where
  kind : IntKind
  val : Int
  fits : kind.Fits val
  deriving DecidableEq

namespace Integer

instance : Repr Integer := ⟨fun n _ => repr n.val ++ " : " ++ n.kind.name⟩

/-- The integer of a kind with a given value, if the value fits. -/
def ofInt? (kind : IntKind) (n : Int) : Option Integer :=
  if h : kind.Fits n then some ⟨kind, n, h⟩ else none

theorem ofInt?_of_fits {kind : IntKind} {n : Int} (fits : kind.Fits n) : ofInt? kind n = some ⟨kind, n, fits⟩ :=
  dif_pos fits

theorem ofInt?_of_not_fits {kind : IntKind} {n : Int} (outside : ¬ kind.Fits n) : ofInt? kind n = none :=
  dif_neg outside

theorem ofInt?_val (n : Integer) : ofInt? n.kind n.val = some n := ofInt?_of_fits n.fits

theorem val_of_ofInt? {kind : IntKind} {n : Int} {i : Integer} (h : ofInt? kind n = some i) : i.val = n := by
  unfold ofInt? at h
  split at h
  · cases h
    rfl
  · cases h

/-- Zero, which every kind holds. -/
def zero (kind : IntKind) : Integer := ⟨kind, 0, by cases kind <;> decide⟩

/-- One, which every kind holds. -/
def one (kind : IntKind) : Integer := ⟨kind, 1, by cases kind <;> decide⟩

/-- Reads an integer of a kind from its digits. Only signed kinds take a minus sign. -/
def read? (kind : IntKind) (cs : List Char) : Option Integer :=
  match cs with
  | '-' :: _ => if kind.signed then (Number.readInt? cs).bind (ofInt? kind) else none
  | _ => (Number.readInt? cs).bind (ofInt? kind)

/-- The digits of an integer, with a minus sign if it is negative. -/
def text (n : Integer) : String := toString n.val

end Integer

end TableMapper
