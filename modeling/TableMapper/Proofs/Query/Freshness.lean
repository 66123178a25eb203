import Mathlib.Data.List.Nodup
import Mathlib.Data.List.Perm.Subperm
import TableMapper.Proofs.KeyMap
import TableMapper.Proofs.Number.Digits
import TableMapper.Proofs.Query.Identifier

/-! # Fresh placeholders

A new placeholder is never one that has a value already, so binding a value leaves all others where they
are. Only placeholders that a field shares change their values later. What stands under the others grows
with the bindings: it is never lost and never changed.
-/

namespace TableMapper.Bindings

/-! ## Names that are free -/

theorem candidate_injective (base : String) : Function.Injective (candidate base) := by
  intro m n same
  have chars := congrArg String.toList same
  simp only [candidate, String.toList_append] at chars
  have digits : (toString m).toList = (toString n).toList := List.append_cancel_left chars
  apply Number.digits_injective
  rw [Number.digits, Number.digits, ← Nat.toList_repr, ← Nat.toList_repr]
  exact digits

/-- Of more names than there are values, one is free. -/
theorem exists_free (b : Bindings) {names : List String} (distinct : names.Nodup) (more : b.size < names.length) :
    ∃ p ∈ names, p ∉ b.placeholders := by
  by_contra none
  have taken : names ⊆ b.placeholders := by
    intro p member
    by_contra new
    exact none ⟨p, member, new⟩
  have short := (List.Nodup.subperm distinct taken).length_le
  rw [placeholders, List.length_map] at short
  exact Nat.not_le_of_lt more short

/-- Among one more candidates than there are entries, one is free. -/
theorem exists_free_candidate (b : Bindings) (base : String) :
    ∃ k, 1 ≤ k ∧ k < 1 + (b.size + 1) ∧ b.contains (candidate base k) = false := by
  have distinct : ((List.range' 1 (b.size + 1)).map (candidate base)).Nodup :=
    List.Nodup.map (candidate_injective base) List.nodup_range'
  obtain ⟨p, member, new⟩ := b.exists_free distinct (by simp)
  obtain ⟨k, range, rfl⟩ := List.mem_map.mp member
  obtain ⟨low, high⟩ := List.mem_range'_1.mp range
  exact ⟨k, low, high, Bool.eq_false_iff.mpr fun held => new (contains_iff.mp held)⟩

/-- The first free name is free, if there is one among the names that are looked at. -/
theorem not_contains_firstFree {b : Bindings} {base : String} {fuel n : Nat}
    (free : ∃ k, n ≤ k ∧ k < n + fuel ∧ b.contains (candidate base k) = false) :
    b.contains (b.firstFree base fuel n) = false := by
  induction fuel generalizing n with
  | zero =>
      obtain ⟨k, low, high, -⟩ := free
      omega
  | succ fuel ih =>
      unfold firstFree
      split
      · next taken =>
        obtain ⟨k, low, high, held⟩ := free
        have later : n ≠ k := by
          rintro rfl
          rw [taken] at held
          exact absurd held.symm Bool.false_ne_true
        exact ih ⟨k, by omega, by omega, held⟩
      · next open' => exact Bool.eq_false_iff.mpr open'

theorem allocate_of_free {b : Bindings} {base : String} (free : base ∉ b.placeholders) : b.allocate base = base := by
  rw [allocate, if_neg fun taken => free (contains_iff.mp taken)]

/-- What is handed out as a placeholder has no value yet. -/
theorem allocate_not_mem (b : Bindings) (base : String) : b.allocate base ∉ b.placeholders := by
  intro member
  have taken := contains_iff.mpr member
  unfold allocate at taken
  split at taken
  · rw [not_contains_firstFree (exists_free_candidate b base)] at taken
    exact Bool.false_ne_true taken
  · next free => exact free taken

/-! ## Looking values up -/

theorem get?_append_of_mem {b : Bindings} {p : String} (h : p ∈ b.placeholders) (e : Binding) :
    ({ b with entries := b.entries ++ [e] } : Bindings).get? p = b.get? p := by
  obtain ⟨held, member, rfl⟩ := List.mem_map.mp h
  have found : (b.entries.find? (·.placeholder == held.placeholder)).isSome = true :=
    List.find?_isSome.mpr ⟨held, member, beq_self_eq_true _⟩
  simp only [get?, List.find?_append, Option.or_of_isSome found]

theorem get?_append_self {b : Bindings} {e : Binding} (new : e.placeholder ∉ b.placeholders) :
    ({ b with entries := b.entries ++ [e] } : Bindings).get? e.placeholder = some e.value := by
  have none : b.entries.find? (·.placeholder == e.placeholder) = none := by
    apply List.find?_eq_none.mpr
    intro held member same
    exact new (List.mem_map.mpr ⟨held, member, beq_iff_eq.mp same⟩)
  simp only [get?, List.find?_append, none, Option.none_or, List.find?_singleton, beq_self_eq_true, if_true,
    Option.map_some]

theorem get?_setValue_of_ne {b : Bindings} {p other : String} (differ : other ≠ p) (v : Value) :
    (b.setValue other v).get? p = b.get? p := by
  have same : ∀ e : Binding,
      ((if e.placeholder = other then { e with value := v } else e : Binding).placeholder == p) =
        (e.placeholder == p) := by
    intro e
    split <;> rfl
  simp only [get?, setValue, List.find?_map, Function.comp_def, same]
  cases found : b.entries.find? (·.placeholder == p) with
  | none => rfl
  | some e =>
      have named : e.placeholder = p := by simpa using List.find?_some found
      simp only [Option.map_some, if_neg (named ▸ differ.symm)]

theorem placeholders_setValue (b : Bindings) (p : String) (v : Value) :
    (b.setValue p v).placeholders = b.placeholders := by
  simp only [placeholders, setValue, List.map_map]
  apply List.map_congr_left
  intro e _
  simp only [Function.comp_apply]
  split <;> rfl

/-! ## Bindings that grow -/

/-- The placeholders that fields share have values. -/
def Sound (b : Bindings) : Prop := ∀ s ∈ b.shared, s.2 ∈ b.placeholders

/-- A placeholder with a value that stays: no field shares it. -/
def Owns (b : Bindings) (p : String) : Prop := p ∈ b.placeholders ∧ ∀ s ∈ b.shared, s.2 ≠ p

/-- The values that stay under their placeholders stand in later bindings as they did. -/
structure Grows (b b' : Bindings) : Prop where
  sound : b'.Sound
  owns : ∀ p, b.Owns p → b'.Owns p
  get? : ∀ p, b.Owns p → b'.get? p = b.get? p

theorem Grows.refl {b : Bindings} (h : b.Sound) : b.Grows b := ⟨h, fun _ own => own, fun _ _ => rfl⟩

theorem Grows.trans {a b c : Bindings} (h : a.Grows b) (h' : b.Grows c) : a.Grows c := by
  refine ⟨h'.sound, fun p own => h'.owns p (h.owns p own), fun p own => ?_⟩
  rw [h'.get? p (h.owns p own), h.get? p own]

/-- A value of its own grows the bindings and stays under its placeholder. -/
theorem Sound.bindFresh {b : Bindings} (h : b.Sound) (field : String) (v : Value) :
    b.Grows (b.bindFresh field v).2 ∧ (b.bindFresh field v).2.Owns (b.bindFresh field v).1 ∧
      (b.bindFresh field v).2.get? (b.bindFresh field v).1 = some v := by
  have new := b.allocate_not_mem (Identifier.placeholderBase field)
  have more : ∀ p ∈ b.placeholders, p ∈ (b.bindFresh field v).2.placeholders := by
    intro p member
    simp only [Bindings.bindFresh, placeholders, List.map_append]
    exact List.mem_append_left _ member
  refine ⟨⟨?_, ?_, ?_⟩, ⟨?_, ?_⟩, ?_⟩
  · exact fun s member => more _ (h s member)
  · exact fun p own => ⟨more p own.1, own.2⟩
  · exact fun p own => get?_append_of_mem own.1 _
  · simp [Bindings.bindFresh, placeholders]
  · intro s member same
    have taken := h s member
    rw [same] at taken
    exact new taken
  · exact get?_append_self (e := ⟨b.allocate (Identifier.placeholderBase field), field, v⟩) new

/-- A shared value changes nothing that stays. -/
theorem Sound.bindShared {b : Bindings} (h : b.Sound) (field : String) (v : Value) :
    b.Grows (b.bindShared field v).2 := by
  unfold Bindings.bindShared
  cases found : b.shared.lookup field with
  | some placeholder =>
      have member := mem_of_lookup_eq_some found
      have kept := b.placeholders_setValue placeholder v
      refine ⟨?_, ?_, ?_⟩
      · intro s shared
        rw [kept]
        exact h s shared
      · intro p own
        exact ⟨kept ▸ own.1, own.2⟩
      · intro p own
        exact get?_setValue_of_ne (own.2 _ member) v
  | none =>
      obtain ⟨grown, own, -⟩ := h.bindFresh field v
      have new := b.allocate_not_mem (Identifier.placeholderBase field)
      refine ⟨?_, ?_, grown.get?⟩
      · intro s member
        obtain rfl | old := List.mem_cons.mp member
        · exact own.1
        · exact grown.sound s old
      · intro p kept
        refine ⟨(grown.owns p kept).1, fun s member => ?_⟩
        obtain rfl | old := List.mem_cons.mp member
        · rintro rfl
          exact new kept.1
        · exact kept.2 s old

theorem Sound.bind {b : Bindings} (h : b.Sound) (field : String) (v : Value) (unique : Bool) :
    b.Grows (b.bind field v unique).2 := by
  cases unique with
  | true => exact (h.bindFresh field v).1
  | false => exact h.bindShared field v

/-- Values bound in turn stand under their placeholders in their order. -/
theorem Sound.bindAll {b : Bindings} (h : b.Sound) (field : String) (values : List Value) :
    b.Grows (b.bindAll field values).2 ∧
      (∀ p ∈ (b.bindAll field values).1, (b.bindAll field values).2.Owns p) ∧
      (b.bindAll field values).1.map (b.bindAll field values).2.get? = values.map some := by
  induction values generalizing b with
  | nil => exact ⟨.refl h, fun _ member => (List.not_mem_nil member).elim, rfl⟩
  | cons v values ih =>
      obtain ⟨first, own, held⟩ := h.bindFresh field v
      obtain ⟨rest, owns, shown⟩ := ih first.sound
      refine ⟨first.trans rest, ?_, ?_⟩
      · intro p member
        obtain rfl | later := List.mem_cons.mp member
        · exact rest.owns _ own
        · exact owns p later
      · simp only [Bindings.bindAll, List.map_cons, shown, rest.get? _ own, held]

end TableMapper.Bindings
