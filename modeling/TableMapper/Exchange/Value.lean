import TableMapper.Exchange.Basic
import TableMapper.Text.Hex
import TableMapper.Wire

/-! # Values and rows in JSON

NULL, truth values and texts stand for themselves; every other value is an object with one member, which is
named for the kind of value. Floating-point numbers are written as their bits, so that none is rounded.
-/

namespace TableMapper

open Number (Binary BinaryFormat)

/-- An object with one member. -/
def Json.tagged (tag : String) (j : Json) : Json := .object [(tag, j)]

/-- The bits of a floating-point number in base sixteen. -/
instance : ToDocument (Binary f) where
  toDocument x :=
    if x.isNaN then "nan"
    else String.ofList (Text.Hex.ofNat ((f.fractionBits + f.exponentBits + 1) / 4) x.toBits)

instance : OfDocument (Binary f) where
  ofDocument?
    | .text "nan" => some (.nan false)
    | .text s => (Text.Hex.readNat? s.toList).map Binary.ofBits
    | _ => none

instance : ToDocument ByteArray := ⟨fun b => Text.Hex.encode b⟩

instance : OfDocument ByteArray where
  ofDocument?
    | .text s => Text.Hex.decode? s
    | _ => none

namespace Value

/-- The written form of a value. -/
def document : Value → Json
  | .null => .null
  | .bool b => b
  | .text s => s
  | .integer n => .tagged n.kind.name n.val
  | .single x => .tagged "f32" x
  | .double x => .tagged "f64" x
  | .bytes b => .tagged "bytes" b
  | .date d => .tagged "date" d.text
  | .dateTime t => .tagged "datetime" t.text
  | .time t => .tagged "time" t.text
  | .decimal d => .tagged "decimal" d.text
  | .json j => .tagged "json" j.compact

def readInteger? (kind : IntKind) : Json → Option Value
  | .number (.whole n) => (Integer.ofInt? kind n).map .integer
  | _ => none

/-- Reads the value behind the name of its kind. -/
def readTagged? (tag : String) (j : Json) : Option Value :=
  match IntKind.all.find? fun kind => kind.name == tag with
  | some kind => readInteger? kind j
  | none =>
    match tag, j with
    | "f32", _ => (ofDocument? j).map .single
    | "f64", _ => (ofDocument? j).map .double
    | "bytes", _ => (ofDocument? j).map .bytes
    | "date", .text s => (Date.read? s).map .date
    | "datetime", .text s => (DateTime.read? s).map .dateTime
    | "time", .text s => (Time.read? s).map .time
    | "decimal", .text s => (Number.Decimal.read? s.toList).map .decimal
    | "json", .text s => (Json.parse? s).map .json
    | _, _ => none

/-- Reads a value. -/
def ofDocument? : Json → Option Value
  | .null => some .null
  | .bool b => some (.bool b)
  | .text s => some (.text s)
  | .object [(tag, j)] => readTagged? tag j
  | _ => none

end Value

instance : ToDocument Value := ⟨Value.document⟩

instance : OfDocument Value := ⟨Value.ofDocument?⟩

/-- A row is the list of its columns, each with its value. -/
instance : ToDocument Row := ⟨fun r => r.toList⟩

instance : OfDocument Row := ⟨fun j => (ofDocument? j).map Row.ofList⟩

instance : ToDocument WireValue where
  toDocument
    | .null => .null
    | .bytes b => .tagged "bytes" b
    | .int n => .tagged "int" n
    | .uint n => .tagged "uint" n
    | .single x => .tagged "float" x
    | .double x => .tagged "double" x
    | .date y m d h i s u => .tagged "date" [y, m, d, h, i, s, u]
    | .time negative d h i s u => .tagged "time" (.array (negative :: [d, h, i, s, u].map toDocument))

/-- Reads a wire value behind the name of its kind. -/
def WireValue.readTagged? (tag : String) (j : Json) : Option WireValue := do
  match tag, j with
  | "bytes", _ => pure (.bytes (← ofDocument? j))
  | "int", _ => pure (.int (← ofDocument? j))
  | "uint", _ => pure (.uint (← ofDocument? j))
  | "float", _ => pure (.single (← ofDocument? j))
  | "double", _ => pure (.double (← ofDocument? j))
  | "date", _ =>
    match ← ofDocument? j with
    | [y, m, d, h, i, s, u] => pure (.date y m d h i s u)
    | _ => none
  | "time", .array (.bool negative :: rest) =>
    match ← ofDocument? (.array rest) with
    | [d, h, i, s, u] => pure (.time negative d h i s u)
    | _ => none
  | _, _ => none

instance : OfDocument WireValue where
  ofDocument?
    | .null => some .null
    | .object [(tag, j)] => WireValue.readTagged? tag j
    | _ => none

namespace ScalarType

/-- Every scalar type. -/
def all : List ScalarType :=
  IntKind.all.map .integer ++
    [.bool, .single, .double, .text, .bytes, .date, .dateTime, .time, .decimal, .json, .any]

end ScalarType

/-- A type of fields is the name of its scalar type, behind a word if it admits NULL. -/
instance : OfDocument FieldType where
  ofDocument?
    | .text s =>
      let (nullable, name) :=
        match Text.dropPrefix? "option " s with
        | some rest => (true, rest)
        | none => (false, s)
      (ScalarType.all.find? fun t => t.name == name).map (⟨·, nullable⟩)
    | _ => none

end TableMapper
