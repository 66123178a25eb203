import TableMapper.Row

/-! # Values on the wire

What the database driver sends and receives. Integers are 64 bits wide there, decimals and documents are
text, and bytes that are well-formed text cannot be told from text.
-/

namespace TableMapper

open Number (Single Double)

/-- A value as the driver sends and receives it. -/
inductive WireValue where
  | null
  | bytes (b : ByteArray)
  | int (n : Int)
  | uint (n : Nat)
  | single (x : Single)
  | double (x : Double)
  | date (year month day hour minute second micro : Nat)
  | time (negative : Bool) (days hour minute second micro : Nat)
  deriving DecidableEq

namespace WireValue

/-- How many years the driver can tell apart. -/
def yearLimit : Int := 65536

/-- How many hours can be counted in a complaint about a span of time. -/
def hourLimit : Nat := 4294967296

/-- A day and a time of day on the wire. Years wrap around. -/
def ofDateTime (d : Date) (t : Time) : WireValue :=
  .date (d.year % yearLimit).toNat d.month d.day t.hour t.minute t.second (t.nano / 1000)

/-- A value as it is sent. -/
def ofValue : Value → WireValue
  | .null => .null
  | .bool b => .int (if b then 1 else 0)
  | .integer n => if n.kind.signed then .int n.val else .uint n.val.toNat
  | .single x => .single x
  | .double x => .double x
  | .text s => .bytes s.toUTF8
  | .bytes b => .bytes b
  | .date d => ofDateTime d .midnight
  | .dateTime t => ofDateTime t.date t.time
  | .time t => .time false 0 t.hour t.minute t.second (t.nano / 1000)
  | .decimal d => .bytes d.text.toUTF8
  | .json j => .bytes j.compact.toUTF8

/-- The time of day of a clock reading. -/
def clock (hour minute second micro : Nat) : Except Error Time :=
  match Time.ofParts? hour minute second (micro * 1000) with
  | some t => .ok t
  | none => .error (.typeConversion (.badClock hour minute second micro))

/-- An integer of 64 bits as a value. -/
def wholeValue (kind : IntKind) (n : Int) : Except Error Value :=
  match Integer.ofInt? kind n with
  | some i => .ok (.integer i)
  | none => .error (.typeConversion (.outOfRange kind.name (toString n)))

/-- A value as it is received. A day at midnight sharp comes back without its time. The hours of a span of time
that is refused wrap around. -/
def toValue : WireValue → Except Error Value
  | .null => .ok .null
  | .bytes b =>
    match String.fromUTF8? b with
    | some s => .ok (.text s)
    | none => .ok (.bytes b)
  | .int n => wholeValue .int64 n
  | .uint n => wholeValue .uint64 n
  | .single x => .ok (.single x)
  | .double x => .ok (.double x)
  | .date year month day hour minute second micro =>
    match Date.ofParts? year month day with
    | none => .error (.typeConversion (.badDay year month day))
    | some d =>
      if hour = 0 ∧ minute = 0 ∧ second = 0 ∧ micro = 0 then .ok (.date d)
      else
        match clock hour minute second micro with
        | .ok t => .ok (.dateTime ⟨d, t⟩)
        | .error e => .error e
  | .time negative days hour minute second micro =>
    if negative = true ∨ 0 < days ∨ 24 ≤ hour then
      .error (.typeConversion (.notTimeOfDay negative ((days * 24 + hour) % hourLimit) minute second))
    else
      match clock hour minute second micro with
      | .ok t => .ok (.time t)
      | .error e => .error e

end WireValue

/-- A row as the driver received it, taken to values. -/
def Row.ofWire (cells : List (String × WireValue)) : Except Error Row := do
  let values ← cells.mapM fun (column, w) => do pure (column, ← w.toValue)
  pure (.ofList values)

/-- Puts a named parameter in its place in the order of names; one of the same name is replaced. -/
def insertParam (name : String) (w : WireValue) : List (String × WireValue) → List (String × WireValue)
  | [] => [(name, w)]
  | (other, old) :: rest =>
    if name = other then (name, w) :: rest
    else if name < other then (name, w) :: (other, old) :: rest
    else (other, old) :: insertParam name w rest

/-- The parameters of a statement as they are sent, by name. Of two with one name the later is sent. -/
def wireParams (params : List (String × Value)) : List (String × WireValue) :=
  params.foldl (fun sorted (name, v) => insertParam name (.ofValue v) sorted) []

end TableMapper
