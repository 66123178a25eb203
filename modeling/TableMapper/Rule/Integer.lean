import TableMapper.Rule.Basic

/-! # Integer rules

Integers within bounds. Texts that denote an integer become one, of 64 bits.
-/

namespace TableMapper.Rule

/-- The lower bound: the given one, or that of the preset. -/
def lowerBound (o : RuleOptions) : Option Int := o.least.or (o.preset.map Preset.least)

/-- The upper bound: the given one, or that of the preset. -/
def upperBound (o : RuleOptions) : Option Int := o.greatest.or (o.preset.map Preset.greatest)

/-- The integer of 64 bits with a given value, signed if it can be. -/
def integer64? (n : Int) : Option Integer :=
  match Integer.ofInt? .int64 n with
  | some i => some i
  | none => Integer.ofInt? .uint64 n

/-- Whether a number takes at most 128 bits, as much as texts are read into. -/
def fits128 (n : Int) : Bool := -(Nat.pow 2 127 : Nat) ≤ n && n < (Nat.pow 2 127 : Nat)

/-- The number that a text denotes, with blanks around it. -/
def textInt? (s : String) : Option Int :=
  (Number.readInt? (Text.trim s).toList).filter fits128

/-- The integer that a value stands for. -/
def integerOf (v : Value) : Except Refusal Integer :=
  match v with
  | .integer i => .ok i
  | _ =>
    match v.text? with
    | none => .error (.wrongType "an integer" v.typeName)
    | some s =>
      match textInt? s with
      | none => .error (.notInteger s)
      | some n =>
        match integer64? n with
        | none => .error (.tooWide n)
        | some i => .ok i

/-- Refuses a number outside of the bounds. -/
def checkBounds (o : RuleOptions) (n : Int) : Except Refusal Unit :=
  match lowerBound o, upperBound o with
  | some least, some greatest =>
    if n < least then .error (.tooLow n least)
    else if greatest < n then .error (.tooHigh n greatest)
    else .ok ()
  | some least, none => if n < least then .error (.tooLow n least) else .ok ()
  | none, some greatest => if greatest < n then .error (.tooHigh n greatest) else .ok ()
  | none, none => .ok ()

/-- What a value is as an integer within the bounds. -/
def checkInteger (o : RuleOptions) (v : Value) : Except Refusal Value :=
  match integerOf v with
  | .error why => .error why
  | .ok i =>
    match checkBounds o i.val with
    | .error why => .error why
    | .ok () => .ok (.integer i)

end TableMapper.Rule
