import TableMapper.Proofs.KeyMap
import TableMapper.Proofs.Query.Reading
import TableMapper.Proofs.Query.Run

/-! # What reachable queries hold

Whatever steps made a query, its columns are quoted, its placeholders are names, and nothing in its HAVING
clause was written by hand. Refused steps keep this too, although they may leave bindings behind.
-/

namespace TableMapper

open Identifier (IsName)
open Reading (Silent silent_escape)

/-! ## Bindings -/

namespace Bindings

/-- The placeholders that fields share are names. -/
def Named (b : Bindings) : Prop := ∀ s ∈ b.shared, IsName s.2.toList

theorem isName_bindFresh (b : Bindings) (field : String) (v : Value) :
    IsName (b.bindFresh field v).1.toList :=
  isName_allocate b (Identifier.isName_placeholderBase field)

theorem isName_of_bindAll {b : Bindings} {field : String} {values : List Value} {p : String}
    (h : p ∈ (b.bindAll field values).1) : IsName p.toList := by
  induction values generalizing b with
  | nil => cases h
  | cons v values ih =>
      rcases List.mem_cons.mp h with rfl | rest
      · exact isName_bindFresh b field v
      · exact ih rest

theorem shared_bindAll (b : Bindings) (field : String) (values : List Value) :
    (b.bindAll field values).2.shared = b.shared := by
  induction values generalizing b with
  | nil => rfl
  | cons v values ih => exact ih (b.bindFresh field v).2

/-- A shared placeholder is a name, whether it was there or is made. -/
theorem Named.bindShared {b : Bindings} (h : b.Named) (field : String) (v : Value) :
    IsName (b.bindShared field v).1.toList ∧ (b.bindShared field v).2.Named := by
  unfold Bindings.bindShared
  cases found : b.shared.lookup field with
  | some placeholder =>
      exact ⟨h _ (mem_of_lookup_eq_some found), h⟩
  | none =>
      have fresh := isName_bindFresh b field v
      refine ⟨fresh, fun s hs => ?_⟩
      rcases List.mem_cons.mp hs with rfl | old
      · exact fresh
      · exact h s old

theorem Named.bind {b : Bindings} (h : b.Named) (field : String) (v : Value) (unique : Bool) :
    (b.bind field v unique).2.Named := by
  cases unique with
  | true => exact h
  | false => exact (h.bindShared field v).2

end Bindings

/-! ## Predicates -/

/-- A predicate that binding made: its columns are quoted, and its placeholders are names. -/
def Term.Bound : Term → Prop
  | .compare column _ placeholder => Silent column ∧ IsName placeholder.toList
  | .literal column _ word => Silent column ∧ Silent word
  | .isIn column _ placeholders => Silent column ∧ ∀ p ∈ placeholders, IsName p.toList
  | .anyKey keys => ∀ key ∈ keys, ∀ c ∈ key, Silent c.1 ∧ IsName c.2.toList
  | .raw _ => False

theorem Condition.silent_literal {v : Value} {word : String} (h : literal? v = some word) :
    Silent word := by
  unfold literal? at h
  split at h <;> cases h <;> decide

/-- Binding a condition makes such a predicate and shares nothing. -/
theorem Condition.bound_of_bind {c : Condition} {b b' : Bindings} {p : Predicate}
    (h : c.bind b = .ok (p, b')) : p.term.Bound ∧ b'.shared = b.shared := by
  have column := silent_escape (Identifier.qualify c.table c.field)
  obtain ⟨concat, term⟩ := p
  cases (Condition.binds_of_bind h).2 with
  | literal _ word_of => exact ⟨⟨column, silent_literal word_of⟩, rfl⟩
  | compare => exact ⟨⟨column, b.isName_bindFresh _ _⟩, rfl⟩
  | isIn => exact ⟨⟨column, fun p hp => Bindings.isName_of_bindAll hp⟩, b.shared_bindAll _ _⟩

namespace Query

/-! ## Keys -/

theorem shared_bindKey (b : Bindings) (key : List (String × Value)) :
    (bindKey b key).2.shared = b.shared := by
  induction key generalizing b with
  | nil => rfl
  | cons cell key ih => exact ih (b.bindFresh cell.1 cell.2).2

theorem bound_of_bindKey {b : Bindings} {key : List (String × Value)} {c : String × String}
    (h : c ∈ (bindKey b key).1) : Silent c.1 ∧ IsName c.2.toList := by
  induction key generalizing b with
  | nil => cases h
  | cons cell key ih =>
      rcases List.mem_cons.mp h with rfl | rest
      · exact ⟨silent_escape cell.1, b.isName_bindFresh cell.1 cell.2⟩
      · exact ih rest

theorem shared_bindKeys (b : Bindings) (keys : List (List (String × Value))) :
    (bindKeys b keys).2.shared = b.shared := by
  induction keys generalizing b with
  | nil => rfl
  | cons key keys ih =>
      unfold bindKeys
      split
      · rfl
      · exact (ih (bindKey b key).2).trans (shared_bindKey b key)

theorem bound_of_bindKeys {b : Bindings} {keys : List (List (String × Value))}
    {terms : List (List (String × String))} (h : (bindKeys b keys).1 = .ok terms) :
    (Term.anyKey terms).Bound := by
  intro cells member c hc
  obtain ⟨b', key, rfl⟩ := exists_bindKey_of_mem h cells member
  exact bound_of_bindKey hc

/-! ## Queries -/

/-- What holds of every query that steps have made. -/
structure WellFormed (q : Query) : Prop where
  wheres : ∀ p ∈ q.wheres, p.term.Bound ∨ ∃ fragment, p.term = .raw fragment
  havings : ∀ p ∈ q.havings, p.term.Bound
  sets : ∀ a ∈ q.sets, IsName a.2.toList
  updates : ∀ a ∈ q.updates, IsName a.2.toList
  bindings : q.bindings.Named

theorem wellFormed_empty : empty.WellFormed :=
  ⟨fun _ h => (List.not_mem_nil h).elim, fun _ h => (List.not_mem_nil h).elim,
    fun _ h => (List.not_mem_nil h).elim, fun _ h => (List.not_mem_nil h).elim,
    fun _ h => (List.not_mem_nil h).elim⟩

/-- Another predicate at the end of a clause keeps what all of them have. -/
theorem forall_mem_concat {α : Type} {P : α → Prop} {xs : List α} {x : α} (hxs : ∀ y ∈ xs, P y)
    (hx : P x) : ∀ y ∈ xs ++ [x], P y := by
  intro y hy
  rcases List.mem_append.mp hy with old | new
  · exact hxs y old
  · exact List.mem_singleton.mp new ▸ hx

/-- What is assigned after another assignment is the new one or was assigned before. -/
theorem mem_assign {xs : Assignments} {field placeholder : String} {x : String × String}
    (h : x ∈ xs.assign field placeholder) : x = (field, placeholder) ∨ x ∈ xs := by
  induction xs with
  | nil => exact .inl (List.mem_singleton.mp h)
  | cons y xs ih =>
      unfold Assignments.assign at h
      split at h
      · next same =>
        obtain rfl | later := List.mem_cons.mp h
        · exact .inl (by rw [same])
        · exact .inr (List.mem_cons_of_mem _ later)
      · obtain rfl | later := List.mem_cons.mp h
        · exact .inr (List.mem_cons_self ..)
        · exact (ih later).imp_right (List.mem_cons_of_mem _)

/-- What the placeholders of all assignments have, they have after another assignment. -/
theorem forall_mem_assign {P : String → Prop} {field placeholder : String} {xs : Assignments}
    (hxs : ∀ a ∈ xs, P a.2) (hp : P placeholder) : ∀ a ∈ xs.assign field placeholder, P a.2 := by
  intro a ha
  obtain rfl | old := mem_assign ha
  · exact hp
  · exact hxs a old

theorem WellFormed.addWhere {q q' : Query} (h : q.WellFormed) {c : Condition}
    (added : q.addWhere c = .ok q') : q'.WellFormed := by
  obtain ⟨p, b, bound, rfl⟩ := exists_of_addWhere added
  obtain ⟨term, shared⟩ := Condition.bound_of_bind bound
  exact { h with
    wheres := forall_mem_concat h.wheres (.inl term)
    bindings := fun s hs => h.bindings s (shared ▸ hs) }

theorem WellFormed.addHaving {q q' : Query} (h : q.WellFormed) {c : Condition}
    (added : q.addHaving c = .ok q') : q'.WellFormed := by
  obtain ⟨p, b, bound, rfl⟩ := exists_of_addHaving added
  obtain ⟨term, shared⟩ := Condition.bound_of_bind bound
  exact { h with
    havings := forall_mem_concat h.havings term
    bindings := fun s hs => h.bindings s (shared ▸ hs) }

theorem WellFormed.addWhereKeys {q : Query} (h : q.WellFormed) (keys : List (List (String × Value))) :
    (q.addWhereKeys keys).2.WellFormed := by
  -- what was bound before a key is refused stays bound, but no predicate is added
  have left : { q with bindings := (bindKeys q.bindings keys).2 }.WellFormed :=
    { h with bindings := fun s hs => h.bindings s (shared_bindKeys q.bindings keys ▸ hs) }
  unfold Query.addWhereKeys
  cases terms : (bindKeys q.bindings keys).1 with
  | error e => simpa only [terms] using left
  | ok made =>
      cases made with
      | nil => simpa only [terms] using left
      | cons term rest =>
          simp only [terms]
          exact { left with wheres := forall_mem_concat h.wheres (.inl (bound_of_bindKeys terms)) }

/-- Every step keeps a query well-formed. -/
theorem WellFormed.perform {q : Query} (h : q.WellFormed) (step : QueryStep) :
    (q.perform step).2.WellFormed := by
  cases step with
  | addWhere c => exact attempt_keeps (P := WellFormed) h fun _ added => h.addWhere added
  | addHaving c => exact attempt_keeps (P := WellFormed) h fun _ added => h.addHaving added
  | addIn field values => exact attempt_keeps (P := WellFormed) h fun _ added => h.addWhere added
  | addRawWhere fragment concat =>
      exact { h with wheres := forall_mem_concat h.wheres (.inr ⟨fragment, rfl⟩) }
  | addWhereKeys keys => exact h.addWhereKeys keys
  | addSet field v =>
      obtain ⟨named, bindings⟩ := h.bindings.bindShared field v
      exact { h with sets := forall_mem_assign (P := fun p => IsName p.toList) h.sets named, bindings }
  | addUpdate field v =>
      obtain ⟨named, bindings⟩ := h.bindings.bindShared (Identifier.qualify (some "update") field) v
      exact { h with updates := forall_mem_assign (P := fun p => IsName p.toList) h.updates named, bindings }
  | bind field v unique => exact { h with bindings := h.bindings.bind field v unique }
  | clear => exact wellFormed_empty
  | setSource | addField | setCalcFoundRows | addJoin | addOrder | addGroup | setLimit
  | setListIndex => exact { h with }

theorem Reachable.wellFormed {q : Query} (h : q.Reachable) : q.WellFormed :=
  h.invariant wellFormed_empty fun _ step hq => hq.perform step

end Query

end TableMapper
