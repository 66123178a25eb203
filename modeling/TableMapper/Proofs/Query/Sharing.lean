import Mathlib.Data.List.Induction
import TableMapper.Proofs.Query.Freshness
import TableMapper.Proofs.Query.WellFormed

/-! # Shared placeholders

Binding the same field again may share the placeholder it had: only the value changes then, and only in
the entry that was made for the field. In every other case there is a new entry behind the old ones. The
invariant says that whatever a field shares is an entry of its own, so that two fields never come to one
entry however much their names look alike.
-/

namespace TableMapper

open Identifier (IsName)

/-- A change to bindings. -/
inductive BindingStep where
  | bind (field : String) (v : Value) (unique : Bool)
  | clear
  deriving DecidableEq

namespace Bindings

def perform (b : Bindings) : BindingStep → Bindings
  | .bind field v unique => (b.bind field v unique).2
  | .clear => empty

/-- The bindings that several changes make of the empty ones. -/
def after (steps : List BindingStep) : Bindings := steps.foldl perform empty

/-- The field was bound without a placeholder of its own, and nothing was cleared since. -/
def SharedIn (steps : List BindingStep) (field : String) : Prop :=
  ∃ before v between, steps = before ++ .bind field v false :: between ∧ .clear ∉ between

/-! ## What every change keeps -/

/-- No two entries have one placeholder, and what a field shares is an entry made for it. -/
structure Consistent (b : Bindings) : Prop where
  distinct : b.placeholders.Nodup
  named : ∀ p ∈ b.placeholders, IsName p.toList
  shared : ∀ s ∈ b.shared, ∃ e ∈ b.entries, e.placeholder = s.2 ∧ e.field = s.1

theorem consistent_empty : empty.Consistent :=
  ⟨List.nodup_nil, fun _ member => (List.not_mem_nil member).elim, fun _ member => (List.not_mem_nil member).elim⟩

theorem Consistent.bindFresh {b : Bindings} (h : b.Consistent) (field : String) (v : Value) :
    (b.bindFresh field v).2.Consistent := by
  have new := b.allocate_not_mem (Identifier.placeholderBase field)
  have more : (b.bindFresh field v).2.placeholders =
      b.placeholders ++ [b.allocate (Identifier.placeholderBase field)] := by
    simp [Bindings.bindFresh, placeholders]
  refine ⟨?_, ?_, ?_⟩
  · rw [more, ← List.concat_eq_append]
    exact h.distinct.concat new
  · rw [more]
    intro p member
    obtain old | rfl := by simpa using member
    · exact h.named p old
    · exact isName_bindFresh b field v
  · intro s member
    obtain ⟨e, held, same⟩ := h.shared s member
    exact ⟨e, List.mem_append_left _ held, same⟩

/-- What is found for a field is one entry among the others. -/
theorem Consistent.exists_entry {b : Bindings} (h : b.Consistent) {field p : String}
    (found : b.shared.lookup field = some p) :
    ∃ front old back, b.entries = front ++ ⟨p, field, old⟩ :: back := by
  obtain ⟨e, held, rfl, rfl⟩ := h.shared _ (mem_of_lookup_eq_some found)
  obtain ⟨front, back, whole⟩ := List.append_of_mem held
  exact ⟨front, e.value, back, whole⟩

/-- A value that is set under a placeholder changes in the one entry that has it. -/
theorem Consistent.entries_setValue {b : Bindings} (h : b.Consistent) {front back : List Binding}
    {e : Binding} (whole : b.entries = front ++ e :: back) (v : Value) :
    (b.setValue e.placeholder v).entries = front ++ { e with value := v } :: back := by
  have distinct := h.distinct
  simp only [placeholders, whole, List.map_append, List.map_cons, List.nodup_append, List.nodup_cons] at distinct
  obtain ⟨-, ⟨behind, -⟩, apart⟩ := distinct
  -- none of the entries around it has the placeholder
  have others : ∀ es : List Binding, e.placeholder ∉ es.map (·.placeholder) →
      es.map (fun d => if d.placeholder = e.placeholder then { d with value := v } else d) = es := by
    intro es absent
    refine (List.map_congr_left fun d member => ?_).trans (List.map_id es)
    apply if_neg
    intro same
    exact absent (List.mem_map.mpr ⟨d, member, same⟩)
  have before : e.placeholder ∉ front.map (·.placeholder) := by
    intro member
    exact apart _ member _ (List.mem_cons_self ..) rfl
  simp [setValue, whole, others front before, others back behind]

theorem Consistent.bindShared {b : Bindings} (h : b.Consistent) (field : String) (v : Value) :
    (b.bindShared field v).2.Consistent := by
  unfold Bindings.bindShared
  cases found : b.shared.lookup field with
  | some p =>
      have same := b.placeholders_setValue p v
      refine ⟨same ▸ h.distinct, same ▸ h.named, ?_⟩
      intro s member
      obtain ⟨e, held, placeholder, made⟩ := h.shared s member
      refine ⟨_, List.mem_map_of_mem held, ?_⟩
      split <;> exact ⟨placeholder, made⟩
  | none =>
      have fresh := h.bindFresh field v
      refine ⟨fresh.distinct, fresh.named, ?_⟩
      intro s member
      obtain rfl | old := List.mem_cons.mp member
      · exact ⟨⟨_, field, v⟩, by simp [Bindings.bindFresh], rfl, rfl⟩
      · exact fresh.shared s old

theorem Consistent.perform {b : Bindings} (h : b.Consistent) (step : BindingStep) :
    (b.perform step).Consistent := by
  cases step with
  | clear => exact consistent_empty
  | bind field v unique =>
      cases unique with
      | true => exact h.bindFresh field v
      | false => exact h.bindShared field v

theorem consistent_after (steps : List BindingStep) : (after steps).Consistent := by
  have run : ∀ (steps : List BindingStep) (b : Bindings), b.Consistent → (steps.foldl Bindings.perform b).Consistent := by
    intro steps
    induction steps with
    | nil => exact fun _ h => h
    | cons step steps ih => exact fun b h => ih _ (h.perform step)
  exact run steps empty consistent_empty

/-! ## What a field shares -/

theorem lookup_bindShared (b : Bindings) (field : String) (v : Value) :
    (b.bindShared field v).2.shared.lookup field = some (b.bindShared field v).1 := by
  unfold Bindings.bindShared
  cases found : b.shared.lookup field with
  | some p => exact found
  | none => simp

/-- A field goes on sharing a placeholder until the bindings are cleared. -/
theorem lookup_perform {b : Bindings} {field p : String} (found : b.shared.lookup field = some p)
    {step : BindingStep} (going : step ≠ .clear) : (b.perform step).shared.lookup field = some p := by
  cases step with
  | clear => exact (going rfl).elim
  | bind other v unique =>
      cases unique with
      | true => exact found
      | false =>
          simp only [perform, Bindings.bind, Bool.false_eq_true, if_false, Bindings.bindShared]
          cases shared : b.shared.lookup other with
          | some q => exact found
          | none =>
              have differ : field ≠ other := by
                rintro rfl
                simp [found] at shared
              simp only [List.lookup_cons, beq_false_of_ne differ]
              exact found

theorem lookup_foldl {b : Bindings} {field p : String} (found : b.shared.lookup field = some p)
    {steps : List BindingStep} (going : .clear ∉ steps) :
    (steps.foldl perform b).shared.lookup field = some p := by
  induction steps generalizing b with
  | nil => exact found
  | cons step steps ih =>
      simp only [List.mem_cons, not_or] at going
      exact ih (lookup_perform found (Ne.symm going.1)) going.2

/-- After a field was bound and until the next clearing, it shares the placeholder that it was given. -/
theorem lookup_after {before between : List BindingStep} {field : String} {v : Value}
    (going : .clear ∉ between) :
    (after (before ++ .bind field v false :: between)).shared.lookup field =
      some ((after before).bind field v false).1 := by
  simp only [after, List.foldl_append, List.foldl_cons]
  exact lookup_foldl (lookup_bindShared _ field v) going

/-- A field shares a placeholder only after it was bound to one. -/
theorem sharedIn_of_lookup {steps : List BindingStep} {field p : String}
    (found : (after steps).shared.lookup field = some p) : SharedIn steps field := by
  induction steps using List.reverseRecOn generalizing p with
  | nil => simp [after, empty] at found
  | append_singleton steps step ih =>
      -- either the last change is the one, or the field shared its placeholder before
      have extend : SharedIn steps field → step ≠ .clear → SharedIn (steps ++ [step]) field := by
        rintro ⟨before, v, between, rfl, going⟩ goes
        refine ⟨before, v, between ++ [step], by simp, ?_⟩
        simp [going, Ne.symm goes]
      simp only [after, List.foldl_append, List.foldl_cons, List.foldl_nil] at found ih
      cases step with
      | clear => simp [perform, empty] at found
      | bind other v unique =>
          by_cases last : other = field ∧ unique = false
          · obtain ⟨rfl, rfl⟩ := last
            exact ⟨steps, v, [], rfl, List.not_mem_nil⟩
          · apply extend _ (by simp)
            cases unique with
            | true => exact ih found
            | false =>
                have differ : field ≠ other := fun same => last ⟨same.symm, rfl⟩
                simp only [perform, Bindings.bind, Bool.false_eq_true, if_false, Bindings.bindShared] at found
                cases shared : (steps.foldl perform empty).shared.lookup other with
                | some q =>
                    simp only [shared] at found
                    exact ih found
                | none =>
                    simp only [shared, List.lookup_cons, beq_false_of_ne differ] at found
                    exact ih found

/-! ## What a binding does -/

/-- A value of its own, or the first that a field shares, stands in one new entry behind the others. -/
theorem entries_bind_of_new {b : Bindings} {field : String} {unique : Bool}
    (new : unique = true ∨ b.shared.lookup field = none) (v : Value) :
    (b.bind field v unique).2.entries = b.entries ++ [⟨(b.bind field v unique).1, field, v⟩] := by
  cases unique with
  | true => rfl
  | false =>
      have unshared : b.shared.lookup field = none := by simpa using new
      simp [Bindings.bind, Bindings.bindShared, unshared, Bindings.bindFresh]

/-- A later value takes the place of the earlier one in the entry of its field. -/
theorem Consistent.entries_bind_of_shared {b : Bindings} (h : b.Consistent) {field p : String}
    (found : b.shared.lookup field = some p) (v : Value) :
    (b.bind field v false).1 = p ∧
      ∃ front old back, b.entries = front ++ ⟨p, field, old⟩ :: back ∧
        (b.bind field v false).2.entries = front ++ ⟨p, field, v⟩ :: back := by
  have shared : b.bind field v false = (p, b.setValue p v) := by
    simp [Bindings.bind, Bindings.bindShared, found]
  obtain ⟨front, old, back, whole⟩ := h.exists_entry found
  rw [shared]
  exact ⟨rfl, front, old, back, whole, h.entries_setValue whole v⟩

/-- What a binding does after any changes. The placeholders there are distinct names. A value of its own,
or the first that a field shares since the bindings were cleared, makes one new entry. A later one goes
under the placeholder that the field was given, and changes the value of that entry and nothing else. -/
theorem bind_after (steps : List BindingStep) (field : String) (v : Value) :
    ((after steps).placeholders.Nodup ∧ ∀ p ∈ (after steps).placeholders, IsName p.toList) ∧
      (∀ unique, unique = true ∨ ¬ SharedIn steps field →
        ((after steps).bind field v unique).2.entries =
          (after steps).entries ++ [⟨((after steps).bind field v unique).1, field, v⟩]) ∧
      ∀ before earlier between, steps = before ++ .bind field earlier false :: between →
        .clear ∉ between → ∃ p front old back,
          ((after before).bind field earlier false).1 = p ∧ ((after steps).bind field v false).1 = p ∧
          (after steps).entries = front ++ ⟨p, field, old⟩ :: back ∧
          ((after steps).bind field v false).2.entries = front ++ ⟨p, field, v⟩ :: back := by
  have consistent := consistent_after steps
  refine ⟨⟨consistent.distinct, consistent.named⟩, ?_, ?_⟩
  · intro unique new
    apply entries_bind_of_new
    cases shared : (after steps).shared.lookup field with
    | none => exact .inr rfl
    | some p => exact new.imp_right fun unshared => (unshared (sharedIn_of_lookup shared)).elim
  · rintro before earlier between rfl going
    obtain ⟨same, front, old, back, whole, changed⟩ :=
      consistent.entries_bind_of_shared (lookup_after going) v
    exact ⟨_, front, old, back, rfl, same, whole, changed⟩

/-- Fields whose names come to one placeholder, and one that is named like the next free one. -/
def lookalikeSteps : List BindingStep :=
  [.bind "a_b" (.text "0") false, .clear, .bind "a-b" (.text "1") false, .bind "a_b" (.text "2") false,
    .bind "a_b_1" (.text "3") true]

/-- A field that looks like two others keeps the entry it was given. -/
theorem bind_after_lookalikes :
    lookalikeSteps = lookalikeSteps.take 3 ++ .bind "a_b" (.text "2") false :: lookalikeSteps.drop 4 ∧
      .clear ∉ lookalikeSteps.drop 4 ∧ (after lookalikeSteps).placeholders = ["a_b", "a_b_1", "a_b_1_1"] ∧
      ((after lookalikeSteps).bind "a_b" (.text "4") false).1 = "a_b_1" ∧
      ∃ front old back, (after lookalikeSteps).entries = front ++ ⟨"a_b_1", "a_b", old⟩ :: back ∧
        ((after lookalikeSteps).bind "a_b" (.text "4") false).2.entries =
          front ++ ⟨"a_b_1", "a_b", .text "4"⟩ :: back := by
  have split : lookalikeSteps =
      lookalikeSteps.take 3 ++ .bind "a_b" (.text "2") false :: lookalikeSteps.drop 4 := rfl
  have going : .clear ∉ lookalikeSteps.drop 4 := by decide
  have given : ((after (lookalikeSteps.take 3)).bind "a_b" (.text "2") false).1 = "a_b_1" := by decide +kernel
  obtain ⟨p, front, old, back, first, same, whole, changed⟩ :=
    (bind_after lookalikeSteps "a_b" (.text "4")).2.2 _ _ _ split going
  obtain rfl : p = "a_b_1" := first.symm.trans given
  exact ⟨split, going, by decide +kernel, same, front, old, back, whole, changed⟩

end Bindings

end TableMapper
