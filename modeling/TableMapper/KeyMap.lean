/-! # Maps with text keys

A map from texts to values, as the list of its entries in the order of their keys. Main statement:
`get?_insert` says what an insertion does to every look-up.
-/

namespace TableMapper

/-- Puts an entry in its place; an entry under the same key is replaced. -/
def insertEntry (key : String) (value : α) : List (String × α) → List (String × α)
  | [] => [(key, value)]
  | (other, old) :: rest =>
    if key = other then (key, value) :: rest
    else if key < other then (key, value) :: (other, old) :: rest
    else (other, old) :: insertEntry key value rest

theorem mem_keys_insertEntry {key k : String} {value : α} {entries : List (String × α)} :
    k ∈ (insertEntry key value entries).map (·.1) ↔ k = key ∨ k ∈ entries.map (·.1) := by
  induction entries with
  | nil => simp [insertEntry]
  | cons e rest ih =>
    obtain ⟨other, old⟩ := e
    unfold insertEntry
    split
    · next h => subst h; simp
    · split
      · simp
      · simp only [List.map_cons, List.mem_cons, ih]
        grind

theorem lookup_cons_eq {κ : Type v} [BEq κ] [LawfulBEq κ] [DecidableEq κ] {key k : κ} {value : α}
    {entries : List (κ × α)} :
    ((key, value) :: entries).lookup k = if k = key then some value else entries.lookup k := by
  by_cases h : k = key
  · simp [h]
  · simp [List.lookup_cons, beq_false_of_ne h, h]

theorem lookup_insertEntry {key k : String} {value : α} {entries : List (String × α)} :
    (insertEntry key value entries).lookup k = if k = key then some value else entries.lookup k := by
  induction entries with
  | nil => simp [insertEntry, lookup_cons_eq]
  | cons e rest ih =>
    obtain ⟨other, old⟩ := e
    unfold insertEntry
    split
    · next h => subst h; simp only [lookup_cons_eq]; grind
    · split
      · simp only [lookup_cons_eq]
      · simp only [lookup_cons_eq, ih]; grind

/-- A map from texts to values. -/
structure KeyMap (α : Type u) where
  entries : List (String × α)
  /-- The keys stand in order, each once. -/
  ordered : (entries.map (·.1)).Pairwise (· < ·)

theorem pairwise_insertEntry {key : String} {value : α} {entries : List (String × α)}
    (h : (entries.map (·.1)).Pairwise (· < ·)) :
    ((insertEntry key value entries).map (·.1)).Pairwise (· < ·) := by
  induction entries with
  | nil => simp [insertEntry]
  | cons e rest ih =>
    obtain ⟨other, old⟩ := e
    simp only [List.map_cons, List.pairwise_cons] at h
    unfold insertEntry
    split
    · next he => subst he; simpa using h
    · split
      · next hne hlt =>
        simp only [List.map_cons, List.pairwise_cons, List.mem_cons]
        refine ⟨?_, h⟩
        rintro k (rfl | hk)
        · exact hlt
        · exact String.lt_trans hlt (h.1 k hk)
      · next hne hlt =>
        simp only [List.map_cons, List.pairwise_cons]
        refine ⟨?_, ih h.2⟩
        intro k hk
        rcases mem_keys_insertEntry.1 hk with rfl | hk
        · exact Classical.byContradiction fun hn =>
            hne (String.le_antisymm (String.not_lt.1 hn) (String.not_lt.1 hlt))
        · exact h.1 k hk

namespace KeyMap

/-- The map without entries. -/
def empty : KeyMap α := ⟨[], by simp⟩

/-- The map with an entry, in place of the one that was under its key. -/
def insert (m : KeyMap α) (key : String) (value : α) : KeyMap α :=
  ⟨insertEntry key value m.entries, pairwise_insertEntry m.ordered⟩

/-- The map of a list of entries; of two entries under one key the later stays. -/
def ofList (entries : List (String × α)) : KeyMap α :=
  entries.foldl (fun m (key, value) => m.insert key value) empty

/-- The entries in the order of their keys. -/
def toList (m : KeyMap α) : List (String × α) := m.entries

/-- The value under a key. -/
def get? (m : KeyMap α) (key : String) : Option α := m.entries.lookup key

/-- Whether there is a value under a key. -/
def contains (m : KeyMap α) (key : String) : Bool := (m.get? key).isSome

/-- The keys in order. -/
def keys (m : KeyMap α) : List String := m.entries.map (·.1)

/-- The values in the order of their keys. -/
def values (m : KeyMap α) : List α := m.entries.map (·.2)

/-- How many entries the map has. -/
def size (m : KeyMap α) : Nat := m.entries.length

/-- The entries whose keys are of a kind. -/
def filterKeys (m : KeyMap α) (p : String → Bool) : KeyMap α :=
  ⟨m.entries.filter fun e => p e.1,
    m.ordered.sublist (List.Sublist.map _ List.filter_sublist)⟩

/-- An insertion changes what is found under its key and nothing else. -/
@[simp] theorem get?_insert {m : KeyMap α} {key k : String} {value : α} :
    (m.insert key value).get? k = if k = key then some value else m.get? k :=
  lookup_insertEntry

end KeyMap

end TableMapper
