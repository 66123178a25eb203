import TableMapper.Query.Identifier
import TableMapper.Value

/-! # Bound values

Values travel beside a statement, each under the name of a placeholder. Binding a field makes a new
placeholder, unless the field shares one: then only its value changes.
-/

namespace TableMapper

/-- A placeholder, the field it was made for, and the value bound to it. -/
structure Binding where
  placeholder : String
  field : String
  value : Value
  deriving DecidableEq

/-- The values bound so far, in the order in which their placeholders were made, and the placeholders
that fields share. -/
structure Bindings where
  entries : List Binding
  shared : List (String × String)
  deriving DecidableEq

namespace Bindings

/-- No values. -/
def empty : Bindings := ⟨[], []⟩

/-- The names of the placeholders. -/
def placeholders (b : Bindings) : List String := b.entries.map (·.placeholder)

/-- Whether a placeholder has a value. -/
def contains (b : Bindings) (placeholder : String) : Bool :=
  b.entries.any (·.placeholder == placeholder)

def get? (b : Bindings) (placeholder : String) : Option Value :=
  (b.entries.find? (·.placeholder == placeholder)).map (·.value)

/-- How many values are bound. -/
def size (b : Bindings) : Nat := b.entries.length

/-- The `n`-th name after a base. -/
def candidate (base : String) (n : Nat) : String := base ++ "_" ++ toString n

/-- The first free name among those with numbers from `n` on, looking at `fuel` of them. -/
def firstFree (b : Bindings) (base : String) : Nat → Nat → String
  | 0, _ => base
  | fuel + 1, n =>
    if b.contains (candidate base n) then firstFree b base fuel (n + 1) else candidate base n

/-- A free name for a placeholder: the base, or the base with the least number that makes it free. Of
as many numbers as there are entries one is free, or the base was. The count is unbounded here: numbers of 32
bits come to an end only behind as many entries. -/
def allocate (b : Bindings) (base : String) : String :=
  if b.contains base then b.firstFree base (b.size + 1) 1 else base

/-- Binds a value under a new placeholder of its own. -/
def bindFresh (b : Bindings) (field : String) (v : Value) : String × Bindings :=
  let placeholder := b.allocate (Identifier.placeholderBase field)
  (placeholder, { b with entries := b.entries ++ [⟨placeholder, field, v⟩] })

/-- Changes the value of a placeholder. -/
def setValue (b : Bindings) (placeholder : String) (v : Value) : Bindings :=
  { b with entries := b.entries.map fun e => if e.placeholder = placeholder then { e with value := v } else e }

/-- Binds a value under the placeholder that a field shares, making it if there is none yet. -/
def bindShared (b : Bindings) (field : String) (v : Value) : String × Bindings :=
  match b.shared.lookup field with
  | some placeholder => (placeholder, b.setValue placeholder v)
  | none =>
    let (placeholder, b) := b.bindFresh field v
    (placeholder, { b with shared := (field, placeholder) :: b.shared })

/-- Binds a value for a field and returns the name of its placeholder. -/
def bind (b : Bindings) (field : String) (v : Value) (unique : Bool) : String × Bindings :=
  if unique then b.bindFresh field v else b.bindShared field v

/-- Binds values for a field in turn, each under a placeholder of its own. -/
def bindAll (b : Bindings) (field : String) : List Value → List String × Bindings
  | [] => ([], b)
  | v :: vs =>
    let (placeholder, b) := b.bindFresh field v
    let (placeholders, b) := bindAll b field vs
    (placeholder :: placeholders, b)

end Bindings

end TableMapper
