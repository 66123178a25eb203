import Mathlib.Data.List.Induction
import Mathlib.Data.List.Nodup
import TableMapper.KeyMap

/-! # Maps as sorted lists

A list whose keys stand in order, each once, is the list of the map that is made of it, and an entry is
found under its key exactly when it is in the list. Of a list in any order the map keeps the last value under
each key, so it has every entry exactly when no key stands in the list twice.
-/

namespace TableMapper

theorem insertEntry_of_forall_lt {α : Type u} {key : String} {value : α} {entries : List (String × α)}
    (last : ∀ k ∈ entries.map (·.1), k < key) : insertEntry key value entries = entries ++ [(key, value)] := by
  induction entries with
  | nil => rfl
  | cons e rest ih =>
      obtain ⟨other, old⟩ := e
      simp only [List.map_cons, List.forall_mem_cons] at last
      have differ : key ≠ other := by
        rintro rfl
        exact String.lt_irrefl _ last.1
      rw [insertEntry, if_neg differ, if_neg (String.lt_asymm last.1), ih last.2]
      rfl

theorem mem_of_lookup_eq_some {α : Type u} {key : String} {value : α} {entries : List (String × α)}
    (found : entries.lookup key = some value) : (key, value) ∈ entries := by
  obtain ⟨before, behind, split, -⟩ := List.lookup_eq_some_iff.mp found
  rw [split]
  exact List.mem_append_right before (List.mem_cons_self ..)

theorem lookup_eq_some_iff_mem {α : Type u} {key : String} {value : α} {entries : List (String × α)}
    (distinct : (entries.map (·.1)).Nodup) : entries.lookup key = some value ↔ (key, value) ∈ entries := by
  induction entries with
  | nil => simp
  | cons e rest ih =>
      obtain ⟨other, old⟩ := e
      simp only [List.map_cons, List.nodup_cons] at distinct
      simp only [lookup_cons_eq, List.mem_cons, Prod.mk.injEq]
      split
      · next same =>
        subst same
        have absent : (key, value) ∉ rest := fun member => distinct.1 (List.mem_map_of_mem member)
        simp [absent, eq_comm]
      · next differ => simp [differ, ih distinct.2]

/-- Where no key stands twice, the first value under a key is the last. -/
theorem lookup_reverse_of_nodup {α : Type u} {entries : List (String × α)} (distinct : (entries.map (·.1)).Nodup)
    (key : String) : entries.reverse.lookup key = entries.lookup key := by
  have reversed : (entries.reverse.map (·.1)).Nodup := by simpa using distinct
  ext value
  rw [lookup_eq_some_iff_mem reversed, lookup_eq_some_iff_mem distinct, List.mem_reverse]

theorem lookup_map_values {α : Type u} {β : Type v} (f : α → β) (key : String) (entries : List (String × α)) :
    (entries.map fun e => (e.1, f e.2)).lookup key = (entries.lookup key).map f := by
  induction entries with
  | nil => rfl
  | cons e rest ih =>
      obtain ⟨other, value⟩ := e
      rw [List.map_cons, lookup_cons_eq, lookup_cons_eq, ih]
      split <;> rfl

/-- Under a key that is kept, the same value is found among the entries that are kept. -/
theorem lookup_filter_keys {α : Type u} {p : String → Bool} {key : String} (kept : p key = true)
    (entries : List (String × α)) : (entries.filter fun e => p e.1).lookup key = entries.lookup key := by
  induction entries with
  | nil => rfl
  | cons e rest ih =>
      obtain ⟨other, value⟩ := e
      rw [List.filter_cons]
      split
      · rw [lookup_cons_eq, lookup_cons_eq, ih]
      · next dropped =>
        have differ : key ≠ other := by
          rintro rfl
          exact dropped kept
        rw [lookup_cons_eq, if_neg differ, ih]

/-- Under distinct keys, one entry is left of those with a key that is there. -/
theorem filter_fst_eq_singleton {α : Type u} {key : String} {value : α} {entries : List (String × α)}
    (distinct : (entries.map (·.1)).Nodup) (member : (key, value) ∈ entries) :
    entries.filter (fun e => e.1 == key) = [(key, value)] := by
  induction entries with
  | nil => cases member
  | cons e rest ih =>
      obtain ⟨other, old⟩ := e
      simp only [List.map_cons, List.nodup_cons] at distinct
      cases member with
      | head =>
          have none : rest.filter (fun e => e.1 == key) = [] := by
            rw [List.filter_eq_nil_iff]
            intro e held same
            exact distinct.1 (eq_of_beq same ▸ List.mem_map_of_mem held)
          simp [none]
      | tail _ later =>
          have differ : other ≠ key := by
            rintro rfl
            exact distinct.1 (List.mem_map_of_mem later)
          simp [differ, ih distinct.2 later]

namespace KeyMap

variable {α : Type u}

theorem entries_foldl_insert (m : KeyMap α) {l : List (String × α)}
    (ordered : ((m.entries ++ l).map (·.1)).Pairwise (· < ·)) :
    (l.foldl (fun m (key, value) => m.insert key value) m).entries = m.entries ++ l := by
  induction l generalizing m with
  | nil => exact (List.append_nil _).symm
  | cons e l ih =>
      obtain ⟨key, value⟩ := e
      have last : ∀ k ∈ m.entries.map (·.1), k < key := by
        intro k member
        rw [List.map_append, List.pairwise_append] at ordered
        exact ordered.2.2 k member key (List.mem_cons_self ..)
      have put : (m.insert key value).entries = m.entries ++ [(key, value)] := insertEntry_of_forall_lt last
      rw [List.foldl_cons, ih, put, List.append_assoc]
      · rfl
      · simpa [put] using ordered

/-- A list in the order of its keys is the list of its map. -/
theorem toList_ofList {l : List (String × α)} (ordered : (l.map (·.1)).Pairwise (· < ·)) :
    (ofList l).toList = l :=
  entries_foldl_insert empty ordered

theorem nodup_keys (m : KeyMap α) : m.keys.Nodup := by
  apply m.ordered.imp
  rintro k k' less rfl
  exact String.lt_irrefl _ less

/-- What is found under a key is its entry. -/
theorem get?_eq_some_iff {m : KeyMap α} {key : String} {value : α} :
    m.get? key = some value ↔ (key, value) ∈ m.toList :=
  lookup_eq_some_iff_mem m.nodup_keys

theorem toList_filterKeys_eq_singleton {m : KeyMap α} {key : String} {value : α}
    (found : m.get? key = some value) : (m.filterKeys (· == key)).toList = [(key, value)] :=
  filter_fst_eq_singleton m.nodup_keys (get?_eq_some_iff.mp found)

theorem contains_iff {m : KeyMap α} {key : String} : m.contains key = true ↔ key ∈ m.keys := by
  simp [contains, Option.isSome_iff_exists, get?_eq_some_iff, keys, toList]

/-! ## Maps of lists in any order -/

theorem ofList_concat (l : List (String × α)) (e : String × α) :
    ofList (l ++ [e]) = (ofList l).insert e.1 e.2 := by
  simp [ofList]

/-- Under a key stands the last of the values that a list has under it. -/
theorem get?_ofList (l : List (String × α)) (key : String) : (ofList l).get? key = l.reverse.lookup key := by
  induction l using List.reverseRecOn with
  | nil => rfl
  | append_singleton l e ih =>
      obtain ⟨last, value⟩ := e
      rw [ofList_concat, get?_insert, ih, List.reverse_append, List.reverse_singleton, List.singleton_append,
        lookup_cons_eq]

/-- The map of a list has its entries, once each, exactly when no key stands in the list twice. -/
theorem perm_ofList_iff {l : List (String × α)} : (ofList l).toList.Perm l ↔ (l.map (·.1)).Nodup := by
  constructor
  · intro same
    exact (same.map Prod.fst).nodup_iff.mp (ofList l).nodup_keys
  · intro distinct
    have once : (ofList l).toList.Nodup := (ofList l).nodup_keys.of_map
    apply (List.perm_ext_iff_of_nodup once distinct.of_map).mpr
    rintro ⟨key, value⟩
    rw [← get?_eq_some_iff, get?_ofList, lookup_reverse_of_nodup distinct, lookup_eq_some_iff_mem distinct]

end KeyMap

end TableMapper
