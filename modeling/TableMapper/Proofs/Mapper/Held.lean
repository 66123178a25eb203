import TableMapper.Proofs.Mapper.Statements
import TableMapper.Proofs.Query.Freshness

/-! # Columns and the values under their placeholders

Columns are assigned and compared under placeholders, which look alike for columns that do, are numbered
where they collide, and may be named like other columns. Whatever they are called, the value of each column
stands under its own placeholder and stays there, as long as no column is assigned twice.
-/

namespace TableMapper

open Identifier (IsName)

namespace Bindings

/-- What stands under the placeholders of some bindings still does in later ones. -/
def Extends (b b' : Bindings) : Prop := ∀ p ∈ b.placeholders, p ∈ b'.placeholders ∧ b'.get? p = b.get? p

theorem Extends.refl (b : Bindings) : b.Extends b := fun _ member => ⟨member, rfl⟩

theorem Extends.trans {a b c : Bindings} (h : a.Extends b) (h' : b.Extends c) : a.Extends c := by
  intro p member
  obtain ⟨later, same⟩ := h p member
  obtain ⟨last, same'⟩ := h' p later
  exact ⟨last, same'.trans same⟩

/-- A name under which a value stands. -/
structure Has (b : Bindings) (p : String) (v : Value) : Prop where
  named : IsName p.toList
  bound : p ∈ b.placeholders
  value : b.get? p = some v

theorem Has.extends {b b' : Bindings} {p : String} {v : Value} (h : b.Has p v) (later : b.Extends b') :
    b'.Has p v := by
  obtain ⟨still, same⟩ := later p h.bound
  exact ⟨h.named, still, same.trans h.value⟩

theorem extends_append (b : Bindings) (e : Binding) (shared : List (String × String)) :
    b.Extends ⟨b.entries ++ [e], shared⟩ := by
  intro p member
  refine ⟨?_, get?_append_of_mem member e⟩
  simp only [placeholders, List.map_append]
  exact List.mem_append_left _ member

/-- A new value stands under a placeholder of its own, and the others stay. -/
theorem has_bindFresh (b : Bindings) (field : String) (v : Value) :
    b.Extends (b.bindFresh field v).2 ∧ (b.bindFresh field v).2.Has (b.bindFresh field v).1 v := by
  refine ⟨extends_append b _ _, b.isName_allocate (Identifier.isName_placeholderBase field), ?_, ?_⟩
  · simp [bindFresh, placeholders]
  · exact get?_append_self (e := ⟨_, field, v⟩) (b.allocate_not_mem _)

/-- So does the value of a field that shares no placeholder yet. -/
theorem has_bindShared {b : Bindings} {field : String} (new : field ∉ b.shared.map (·.1)) (v : Value) :
    b.Extends (b.bindShared field v).2 ∧ (b.bindShared field v).2.Has (b.bindShared field v).1 v ∧
      (b.bindShared field v).2.shared.map (·.1) = field :: b.shared.map (·.1) := by
  obtain ⟨later, has⟩ := b.has_bindFresh field v
  simp only [bindShared, lookup_of_not_mem new]
  exact ⟨later, ⟨has.named, has.bound, has.value⟩, rfl⟩

/-- Columns with placeholders under which the values of columns stand, in the same order. -/
def Holds (b : Bindings) (placed : List (String × String)) (cells : List (String × Value)) : Prop :=
  List.Forall₂ (fun s c => s.1 = c.1 ∧ b.Has s.2 c.2) placed cells

section

variable {b b' : Bindings} {placed : List (String × String)} {cells : List (String × Value)}

theorem Holds.extends (h : b.Holds placed cells) (later : b.Extends b') : b'.Holds placed cells := by
  apply List.Forall₂.imp _ h
  exact fun s c same => ⟨same.1, same.2.extends later⟩

theorem Holds.has (h : b.Holds placed cells) : ∀ s ∈ placed, ∃ v, b.Has s.2 v := by
  induction h with
  | nil => exact fun s member => (List.not_mem_nil member).elim
  | cons first _ ih =>
      simp only [List.forall_mem_cons]
      exact ⟨⟨_, first.2⟩, ih⟩

theorem Holds.values (h : b.Holds placed cells) :
    placed.map (fun s => (s.1, b.get? s.2)) = cells.map fun c => (c.1, some c.2) := by
  induction h with
  | nil => rfl
  | cons first _ ih => simp [first.1, first.2.value, ih]

end

end Bindings

open Bindings (Holds Extends)

/-- Columns that are assigned once each, for fields that share no placeholders yet, are held with their
values. -/
theorem Assignments.holds_assignAll {field : String → String} (oneField : Function.Injective field)
    {cells : List (String × Value)} {a : Assignments} {b : Bindings} (distinct : (cells.map (·.1)).Nodup)
    (unset : ∀ c ∈ cells.map (·.1), c ∉ a.map (·.1))
    (unshared : ∀ c ∈ cells.map (·.1), field c ∉ b.shared.map (·.1)) :
    ∃ placed, (a.assignAll field cells b).1 = a ++ placed ∧ Holds (a.assignAll field cells b).2 placed cells ∧
      b.Extends (a.assignAll field cells b).2 ∧
      (a.assignAll field cells b).2.shared.map (·.1) ⊆ (cells.map (·.1)).map field ++ b.shared.map (·.1) := by
  induction cells generalizing a b with
  | nil => exact ⟨[], (List.append_nil _).symm, .nil, .refl b, List.Subset.refl _⟩
  | cons cell cells ih =>
      obtain ⟨c, v⟩ := cell
      simp only [List.map_cons, List.forall_mem_cons, List.nodup_cons] at distinct unset unshared
      have other : ∀ d ∈ cells.map (·.1), d ≠ c := fun d member same => distinct.1 (same ▸ member)
      obtain ⟨later, has, shared⟩ := Bindings.has_bindShared unshared.1 v
      have assigned := assign_of_not_mem (b.bindShared (field c) v).1 unset.1
      obtain ⟨placed, all, holds, last, sharing⟩ := ih (a := a.assign c (b.bindShared (field c) v).1)
        (b := (b.bindShared (field c) v).2) distinct.2
        (by
          intro d member
          simp only [assigned, List.map_append, List.mem_append, List.map_cons, List.map_nil,
            List.mem_singleton, not_or]
          exact ⟨unset.2 d member, other d member⟩)
        (by
          intro d member
          simp only [shared, List.mem_cons, not_or]
          exact ⟨fun same => other d member (oneField same), unshared.2 d member⟩)
      simp only [assignAll]
      refine ⟨(c, (b.bindShared (field c) v).1) :: placed, ?_, ?_, later.trans last, ?_⟩
      · rw [all, assigned, List.append_assoc]
        rfl
      · exact .cons ⟨rfl, has.extends last⟩ holds
      · intro f member
        have := sharing member
        simp only [shared, List.mem_append, List.mem_cons, List.map_cons] at this ⊢
        tauto

namespace Query

/-- The conditions that columns equal what stands under placeholders. -/
def comparisons (placed : List (String × String)) : List Predicate :=
  placed.map fun s => ⟨.and, .compare (Identifier.escape s.1) .eq s.2⟩

/-- Conditions on columns are never refused, and held with their values. -/
theorem holds_addAllEqual (cells : List (String × Value)) (q : Query) :
    ∃ placed b, q.addAllEqual none cells =
        .ok { q with wheres := q.wheres ++ comparisons placed, bindings := b } ∧
      Holds b placed cells ∧ q.bindings.Extends b := by
  induction cells generalizing q with
  | nil => exact ⟨[], q.bindings, by simp [addAllEqual, comparisons], .nil, .refl _⟩
  | cons cell cells ih =>
      obtain ⟨c, v⟩ := cell
      obtain ⟨later, has⟩ := q.bindings.has_bindFresh c v
      obtain ⟨placed, b, added, holds, last⟩ := ih { q with
        wheres := q.wheres ++ comparisons [(c, (q.bindings.bindFresh c v).1)]
        bindings := (q.bindings.bindFresh c v).2 }
      refine ⟨(c, (q.bindings.bindFresh c v).1) :: placed, b, ?_, .cons ⟨rfl, has.extends last⟩ holds,
        later.trans last⟩
      rw [addAllEqual]
      refine Eq.trans added ?_
      simp [comparisons]

theorem lookup_params {names : List String} {p : String} (member : p ∈ names) (entries : List Binding) :
    ((entries.filter fun b => names.contains b.placeholder).map fun b => (b.placeholder, b.value)).lookup p =
      (entries.find? (·.placeholder == p)).map (·.value) := by
  induction entries with
  | nil => rfl
  | cons e entries ih =>
      simp only [List.contains_eq_mem] at ih ⊢
      by_cases same : e.placeholder = p
      · simp [same, member]
      · have other : ¬ p = e.placeholder := fun h => same h.symm
        by_cases named : e.placeholder ∈ names
        · simp [same, other, named, lookup_cons_eq, ih]
        · simp [same, named, ih]

/-- A statement whose placeholders all have values is built, and its parameters are those values. -/
theorem exists_build {q : Query} {kind : StatementKind} {texts : List String}
    (rendered : q.clauses kind = .ok texts)
    (bound : ∀ p ∈ q.statementPlaceholders kind, p ∈ q.bindings.placeholders) :
    ∃ st, q.build kind = .ok st ∧ st.sql = " ".intercalate (texts.filter fun text => !text.isEmpty) ∧
      ∀ p ∈ q.statementPlaceholders kind, st.param? p = q.bindings.get? p := by
  have none : ((q.statementPlaceholders kind).find? fun name => !q.bindings.contains name) = .none := by
    apply List.find?_eq_none.mpr
    intro p member
    simp [Bindings.contains_iff.mpr (bound p member)]
  simp only [build, rendered, Bind.bind, Except.bind, none]
  exact ⟨_, rfl, rfl, fun p member => lookup_params member q.bindings.entries⟩

end Query

end TableMapper
