import TableMapper.Json.Basic

/-! # Exchange of values in JSON

Types whose values have a written form in JSON, and types that are read from it: truth values, numbers, texts,
lists, pairs and values that may be missing. What is missing in an object is read as if it were null: no value,
no items, or a flag that is off.
-/

namespace TableMapper

/-- A type whose values are written in JSON. -/
class ToDocument (α : Type) where
  /-- The written form of a value. -/
  toDocument : α → Json

/-- A type whose values are read from JSON. -/
class OfDocument (α : Type) where
  /-- The value of a written form, if it is one. -/
  ofDocument? : Json → Option α

export ToDocument (toDocument)
export OfDocument (ofDocument?)

/-- A value stands for its written form where a document is expected. -/
instance [ToDocument α] : CoeHead α Json := ⟨toDocument⟩

/-- Reads a member of an object; a missing one is read from null. -/
def Json.read? [OfDocument α] (j : Json) (name : String) : Option α :=
  ofDocument? ((j.member? name).getD .null)

instance : ToDocument Json := ⟨id⟩

instance : OfDocument Json := ⟨some⟩

instance : ToDocument Bool := ⟨.bool⟩

instance : OfDocument Bool where
  ofDocument?
    | .bool b => some b
    | .null => some false
    | _ => none

instance : ToDocument String := ⟨.text⟩

instance : OfDocument String where
  ofDocument?
    | .text s => some s
    | _ => none

instance : ToDocument Int := ⟨fun n => .number (.whole n)⟩

instance : OfDocument Int where
  ofDocument?
    | .number (.whole n) => some n
    | _ => none

instance : ToDocument Nat := ⟨fun n => .number (.whole n)⟩

instance : OfDocument Nat where
  ofDocument?
    | .number (.whole n) => n.toNat?
    | _ => none

instance [ToDocument α] : ToDocument (Option α) where
  toDocument
    | some a => toDocument a
    | none => .null

instance [OfDocument α] : OfDocument (Option α) where
  ofDocument?
    | .null => some none
    | j => (ofDocument? j).map some

instance [ToDocument α] : ToDocument (List α) := ⟨fun l => .array (l.map toDocument)⟩

instance [OfDocument α] : OfDocument (List α) where
  ofDocument?
    | .array items => items.mapM ofDocument?
    | .null => some []
    | _ => none

/-- A pair is a list of two. -/
instance [ToDocument α] [ToDocument β] : ToDocument (α × β) :=
  ⟨fun (a, b) => .array [toDocument a, toDocument b]⟩

instance [OfDocument α] [OfDocument β] : OfDocument (α × β) where
  ofDocument?
    | .array [a, b] => do pure (← ofDocument? a, ← ofDocument? b)
    | _ => none

/-- A list is read back if its items are. -/
theorem ofDocument_toDocument_list [ToDocument α] [OfDocument α] (l : List α)
    (items : ∀ a ∈ l, ofDocument? (toDocument a) = some a) : ofDocument? (toDocument l) = some l := by
  have read : (l.map toDocument).mapM (m := Option) ofDocument? = some l := by
    induction l with
    | nil => rfl
    | cons a l ih =>
      simp only [List.map_cons, List.mapM_cons, items a List.mem_cons_self]
      rw [ih fun b hb => items b (List.mem_cons_of_mem a hb)]
      rfl
  exact read

end TableMapper
