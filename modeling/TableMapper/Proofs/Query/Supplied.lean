import TableMapper.Proofs.Query.KeptValues
import TableMapper.Proofs.Query.Placeholders
import TableMapper.Proofs.Query.Refusals
import TableMapper.Proofs.Query.Sharing

/-! # Statements are supplied

Clauses refer to values by their placeholders, and the values stand in the bindings that all clauses write to. The
invariant is that whatever binding made for a clause has a value, and no two values have one placeholder. So only a
condition written by hand can lack a value, and a statement carries the values that it refers to and no others.
Main statement: `build_supplied`.
-/

namespace TableMapper

namespace Bindings

/-- New values, each under a placeholder of its own, make the later bindings of the earlier ones. -/
inductive Adds : Bindings → Bindings → Prop
  | refl (b : Bindings) : Adds b b
  | fresh {b b' : Bindings} (field : String) (v : Value) (rest : Adds (b.bindFresh field v).2 b') : Adds b b'

namespace Adds

variable {b b' : Bindings}

theorem trans {c : Bindings} (h : Adds b b') (h' : Adds b' c) : Adds b c := by
  induction h with
  | refl => exact h'
  | fresh field v _ ih => exact .fresh field v (ih h')

theorem bindAll (b : Bindings) (field : String) (values : List Value) : Adds b (b.bindAll field values).2 := by
  induction values generalizing b with
  | nil => exact .refl b
  | cons v values ih => exact .fresh field v (ih _)

theorem bindKey (b : Bindings) (key : List (String × Value)) : Adds b (Query.bindKey b key).2 := by
  induction key generalizing b with
  | nil => exact .refl b
  | cons cell key ih => exact .fresh cell.1 cell.2 (ih _)

theorem bindKeys (b : Bindings) (keys : List (List (String × Value))) : Adds b (Query.bindKeys b keys).2 := by
  induction keys generalizing b with
  | nil => exact .refl b
  | cons key keys ih =>
      unfold Query.bindKeys
      split
      · exact .refl b
      · exact (bindKey b key).trans (ih _)

theorem condition {c : Condition} {p : Predicate} (h : c.bind b = .ok (p, b')) : Adds b b' := by
  obtain ⟨concat, term⟩ := p
  cases (Condition.binds_of_bind h).2 with
  | literal => exact .refl b
  | compare => exact .fresh _ _ (.refl _)
  | isIn => exact bindAll b _ _

theorem consistent (h : Adds b b') (consistent : b.Consistent) : b'.Consistent := by
  induction h with
  | refl => exact consistent
  | fresh field v _ ih => exact ih (consistent.bindFresh field v)

theorem subset (h : Adds b b') : b.placeholders ⊆ b'.placeholders := by
  induction h with
  | refl => exact List.Subset.refl _
  | @fresh b _ field v _ ih =>
      have first : b.placeholders ⊆ (b.bindFresh field v).2.placeholders := by
        simp [bindFresh, placeholders]
      exact List.Subset.trans first ih

end Adds

theorem Consistent.sound {b : Bindings} (h : b.Consistent) : b.Sound := by
  intro s member
  obtain ⟨e, held, same, -⟩ := h.shared s member
  exact same ▸ List.mem_map_of_mem held

/-- A shared placeholder has a value, and so does what had one before. -/
theorem Consistent.mem_bindShared {b : Bindings} (h : b.Consistent) (field : String) (v : Value) :
    (b.bindShared field v).1 ∈ (b.bindShared field v).2.placeholders ∧
      b.placeholders ⊆ (b.bindShared field v).2.placeholders := by
  unfold Bindings.bindShared
  cases found : b.shared.lookup field with
  | some p =>
      obtain ⟨front, old, back, entries⟩ := h.exists_entry found
      simp only [placeholders_setValue]
      exact ⟨by simp [placeholders, entries], List.Subset.refl _⟩
  | none => exact ⟨by simp [Bindings.bindFresh, placeholders], (Adds.fresh field v (.refl _)).subset⟩

end Bindings

/-! ## What clauses refer to -/

/-- The placeholders that binding put into a term. -/
inductive Term.Carries : Term → String → Prop
  | compare (column : String) (op : Operator) (name : String) : Carries (.compare column op name) name
  | isIn {column : String} {negated : Bool} {names : List String} {name : String} (member : name ∈ names) :
      Carries (.isIn column negated names) name
  | anyKey {keys : List (List (String × String))} {key : List (String × String)} {column name : String}
      (member : key ∈ keys) (cell : (column, name) ∈ key) : Carries (.anyKey keys) name

theorem Term.carries_iff {t : Term} {name : String} : t.Carries name ↔ name ∈ t.placeholders := by
  constructor
  · rintro (_ | member | ⟨member, cell⟩)
    · exact List.mem_singleton_self _
    · exact member
    · exact List.mem_flatMap.mpr ⟨_, member, List.mem_map_of_mem cell⟩
  · intro member
    cases t with
    | compare column op placeholder => exact List.mem_singleton.mp member ▸ .compare ..
    | isIn column negated names => exact .isIn member
    | anyKey keys =>
        obtain ⟨key, among, named⟩ := List.mem_flatMap.mp member
        obtain ⟨⟨column, placeholder⟩, cell, rfl⟩ := List.mem_map.mp named
        exact .anyKey among cell
    | literal | raw => cases member

namespace Query

/-- The placeholders that binding put into the clauses of a query. -/
inductive Carries (q : Query) : String → Prop
  | wheres {p : Predicate} {name : String} (member : p ∈ q.wheres) (carried : p.term.Carries name) : Carries q name
  | havings {p : Predicate} {name : String} (member : p ∈ q.havings) (carried : p.term.Carries name) : Carries q name
  | sets {field name : String} (member : (field, name) ∈ q.sets) : Carries q name
  | updates {field name : String} (member : (field, name) ∈ q.updates) : Carries q name

/-- A condition written by hand refers to the placeholder. -/
def Written (q : Query) (name : String) : Prop :=
  ∃ p ∈ q.wheres, ∃ fragment, p.term = .raw fragment ∧ name ∈ Fragment.placeholders fragment

/-- The placeholders that the clauses of a statement refer to. -/
inductive Refers (q : Query) : StatementKind → String → Prop
  | wheres {kind : StatementKind} {p : Predicate} {name : String} (clause : kind ≠ .insert) (member : p ∈ q.wheres)
      (carried : p.term.Carries name) : Refers q kind name
  | written {kind : StatementKind} {name : String} (clause : kind ≠ .insert) (written : q.Written name) :
      Refers q kind name
  | havings {kind : StatementKind} {p : Predicate} {name : String} (clause : kind = .select ∨ kind = .count)
      (member : p ∈ q.havings) (carried : p.term.Carries name) : Refers q kind name
  | sets {kind : StatementKind} {field name : String} (clause : kind = .insert ∨ kind = .update)
      (member : (field, name) ∈ q.sets) : Refers q kind name
  | updates {field name : String} (member : (field, name) ∈ q.updates) : Refers q .insert name

theorem mem_boundPlaceholders_iff {ps : List Predicate} {name : String} :
    name ∈ boundPlaceholders ps ↔ ∃ p ∈ ps, p.term.Carries name := by
  simp only [boundPlaceholders, List.mem_flatMap, Term.carries_iff]

theorem mem_fragments_iff {q : Query} {name : String} :
    name ∈ (rawFragments q.wheres).flatMap Fragment.placeholders ↔ q.Written name := by
  simp only [rawFragments, List.mem_flatMap, List.mem_filterMap, Written]
  constructor
  · rintro ⟨fragment, ⟨p, member, some⟩, named⟩
    cases term : p.term with
    | raw text =>
        rw [term] at some
        cases some
        exact ⟨p, member, fragment, term, named⟩
    | _ => rw [term] at some; cases some
  · rintro ⟨p, member, fragment, term, named⟩
    exact ⟨fragment, ⟨p, member, by rw [term]⟩, named⟩

theorem mem_placeholders_iff {xs : Assignments} {name : String} :
    name ∈ xs.placeholders ↔ ∃ field, (field, name) ∈ xs := by
  simp [Assignments.placeholders]

/-- What `build` lists is what the clauses of the statement refer to. -/
theorem refers_iff {q : Query} {kind : StatementKind} {name : String} :
    q.Refers kind name ↔ name ∈ q.ownPlaceholders kind ∨ name ∈ (q.fragments kind).flatMap Fragment.placeholders := by
  constructor
  · rintro (⟨clause, member, held⟩ | ⟨clause, written⟩ | ⟨clause, member, held⟩ | ⟨clause, member⟩ | member)
    · have bound := mem_boundPlaceholders_iff.mpr ⟨_, member, held⟩
      cases kind with
      | insert => exact (clause rfl).elim
      | _ => simp [ownPlaceholders, bound]
    · have found := mem_fragments_iff.mpr written
      cases kind with
      | insert => exact (clause rfl).elim
      | _ => exact .inr found
    · have bound := mem_boundPlaceholders_iff.mpr ⟨_, member, held⟩
      obtain rfl | rfl := clause <;> simp [ownPlaceholders, bound]
    · have assigned := mem_placeholders_iff.mpr ⟨_, member⟩
      obtain rfl | rfl := clause <;> simp [ownPlaceholders, assigned]
    · have assigned := mem_placeholders_iff.mpr ⟨_, member⟩
      simp [ownPlaceholders, assigned]
  · have wheres (clause : kind ≠ .insert) (bound : name ∈ boundPlaceholders q.wheres) : q.Refers kind name := by
      obtain ⟨p, member, held⟩ := mem_boundPlaceholders_iff.mp bound
      exact .wheres clause member held
    have havings (clause : kind = .select ∨ kind = .count) (bound : name ∈ boundPlaceholders q.havings) :
        q.Refers kind name := by
      obtain ⟨p, member, held⟩ := mem_boundPlaceholders_iff.mp bound
      exact .havings clause member held
    have sets (clause : kind = .insert ∨ kind = .update) (assigned : name ∈ q.sets.placeholders) :
        q.Refers kind name := by
      obtain ⟨field, member⟩ := mem_placeholders_iff.mp assigned
      exact .sets clause member
    rintro (own | found)
    · cases kind with
      | select =>
          obtain bound | bound := List.mem_append.mp own
          · exact wheres StatementKind.noConfusion bound
          · exact havings (.inl rfl) bound
      | count =>
          obtain bound | bound := List.mem_append.mp own
          · exact wheres StatementKind.noConfusion bound
          · exact havings (.inr rfl) bound
      | insert =>
          obtain assigned | assigned := List.mem_append.mp own
          · exact sets (.inl rfl) assigned
          · obtain ⟨field, member⟩ := mem_placeholders_iff.mp assigned
            exact .updates member
      | update =>
          obtain assigned | bound := List.mem_append.mp own
          · exact sets (.inr rfl) assigned
          · exact wheres StatementKind.noConfusion bound
      | delete => exact wheres StatementKind.noConfusion own
    · cases kind with
      | insert => cases found
      | _ => exact .written StatementKind.noConfusion (mem_fragments_iff.mp found)

/-! ## What a step keeps -/

/-- What binding made for a clause has a value, and no two values have one placeholder. -/
structure Supplied (q : Query) : Prop where
  consistent : q.bindings.Consistent
  wheres : ∀ p ∈ q.wheres, p.term.placeholders ⊆ q.bindings.placeholders
  havings : ∀ p ∈ q.havings, p.term.placeholders ⊆ q.bindings.placeholders
  sets : ∀ a ∈ q.sets, a.2 ∈ q.bindings.placeholders
  updates : ∀ a ∈ q.updates, a.2 ∈ q.bindings.placeholders

theorem supplied_empty : empty.Supplied :=
  ⟨Bindings.consistent_empty, fun _ h => (List.not_mem_nil h).elim, fun _ h => (List.not_mem_nil h).elim,
    fun _ h => (List.not_mem_nil h).elim, fun _ h => (List.not_mem_nil h).elim⟩

namespace Supplied

variable {q : Query}

/-- Clauses that are supplied still are when the bindings lose nothing. -/
theorem grows (h : q.Supplied) {b : Bindings} (consistent : b.Consistent)
    (kept : q.bindings.placeholders ⊆ b.placeholders) : { q with bindings := b }.Supplied :=
  ⟨consistent, fun p member _ held => kept (h.wheres p member held),
    fun p member _ held => kept (h.havings p member held), fun a member => kept (h.sets a member),
    fun a member => kept (h.updates a member)⟩

theorem adds (h : q.Supplied) {b : Bindings} (later : q.bindings.Adds b) : { q with bindings := b }.Supplied :=
  h.grows (later.consistent h.consistent) later.subset

theorem addWhere (h : q.Supplied) {c : Condition} {q' : Query} (added : q.addWhere c = .ok q') : q'.Supplied := by
  obtain ⟨p, b, bound, rfl⟩ := exists_of_addWhere added
  obtain ⟨-, stays, -⟩ := Condition.filled_of_bind h.consistent.sound bound
  have left := h.adds (.condition bound)
  exact { left with wheres := forall_mem_concat left.wheres fun name held => (stays name held).1 }

theorem addHaving (h : q.Supplied) {c : Condition} {q' : Query} (added : q.addHaving c = .ok q') :
    q'.Supplied := by
  obtain ⟨p, b, bound, rfl⟩ := exists_of_addHaving added
  obtain ⟨-, stays, -⟩ := Condition.filled_of_bind h.consistent.sound bound
  have left := h.adds (.condition bound)
  exact { left with havings := forall_mem_concat left.havings fun name held => (stays name held).1 }

theorem addWhereKeys (h : q.Supplied) (keys : List (List (String × Value))) :
    (q.addWhereKeys keys).2.Supplied := by
  -- the keys before one that is refused stay bound, although no predicate holds them
  have left := h.adds (.bindKeys q.bindings keys)
  unfold Query.addWhereKeys
  cases terms : (bindKeys q.bindings keys).1 with
  | error e => simpa only [terms] using left
  | ok made =>
      cases made with
      | nil => simpa only [terms] using left
      | cons term rest =>
          obtain ⟨stays, -⟩ := (filled_bindKeys h.consistent.sound keys).2 _ terms
          simp only [terms]
          exact { left with wheres := forall_mem_concat left.wheres fun name held => (stays name held).1 }

theorem perform (h : q.Supplied) (step : QueryStep) : (q.perform step).2.Supplied := by
  cases step with
  | addWhere c => exact attempt_keeps (P := Supplied) h fun _ added => h.addWhere added
  | addHaving c => exact attempt_keeps (P := Supplied) h fun _ added => h.addHaving added
  | addIn field values => exact attempt_keeps (P := Supplied) h fun _ added => h.addWhere added
  | addRawWhere fragment concat =>
      exact { h with wheres := forall_mem_concat h.wheres (List.nil_subset _) }
  | addWhereKeys keys => exact h.addWhereKeys keys
  | addSet field v =>
      obtain ⟨bound, kept⟩ := h.consistent.mem_bindShared field v
      have left := h.grows (h.consistent.bindShared field v) kept
      exact { left with sets := forall_mem_assign left.sets bound }
  | addUpdate field v =>
      obtain ⟨bound, kept⟩ := h.consistent.mem_bindShared (Identifier.qualify (some "update") field) v
      have left := h.grows (h.consistent.bindShared _ v) kept
      exact { left with updates := forall_mem_assign left.updates bound }
  | bind field v unique =>
      cases unique with
      | true => exact h.adds (.fresh field v (.refl _))
      | false => exact h.grows (h.consistent.bindShared field v) (h.consistent.mem_bindShared field v).2
  | clear => exact supplied_empty
  | setSource | addField | setCalcFoundRows | addJoin | addOrder | addGroup | setLimit
  | setListIndex => exact { h with }

end Supplied

theorem Reachable.supplied {q : Query} (h : q.Reachable) : q.Supplied :=
  h.invariant supplied_empty fun _ step hq => hq.perform step

theorem Supplied.bound {q : Query} (h : q.Supplied) {name : String} (held : q.Carries name) :
    name ∈ q.bindings.placeholders := by
  cases held with
  | wheres member held => exact h.wheres _ member (Term.carries_iff.mp held)
  | havings member held => exact h.havings _ member (Term.carries_iff.mp held)
  | sets member => exact h.sets _ member
  | updates member => exact h.updates _ member

/-! ## What is built -/

/-- A statement that is refused for want of a value refers to it. -/
theorem of_build_unbound {q : Query} {kind : StatementKind} {name : String}
    (refused : q.build kind = .error (.invalidQuery (.unbound name))) :
    name ∈ q.statementPlaceholders kind ∧ name ∉ q.bindings.placeholders := by
  obtain clauses | ⟨texts, -, refused⟩ := error_of_bind refused
  · exact (q.clauses_ne_unbound kind name clauses).elim
  · dsimp only at refused
    split at refused
    · next other missing =>
      cases refused
      refine ⟨List.mem_of_find?_eq_some missing, fun bound => ?_⟩
      have lacking := List.find?_some missing
      simp [Bindings.contains_iff.mpr bound] at lacking
    · cases refused

theorem params_of_build {q : Query} {kind : StatementKind} {st : Statement} (built : q.build kind = .ok st) :
    st.params = (q.bindings.entries.filter fun b => (q.statementPlaceholders kind).contains b.placeholder).map
      fun b => (b.placeholder, b.value) := by
  obtain ⟨texts, -, rest⟩ := exists_of_bind built
  dsimp only at rest
  split at rest
  · cases rest
  · cases rest
    rfl

/-- Clauses are supplied with their values. Whatever binding put into a clause has a value, so a statement can
only lack one that a condition written by hand refers to. A statement that is built carries the values that its
clauses refer to, each once, in the order and with the value that they have among the bindings. -/
theorem build_supplied {q : Query} (h : q.Reachable) (kind : StatementKind) :
    (∀ name, q.Carries name → name ∈ q.bindings.placeholders) ∧
      (∀ name, q.build kind = .error (.invalidQuery (.unbound name)) →
        name ∉ q.bindings.placeholders ∧ kind ≠ .insert ∧ q.Written name) ∧
      ∀ st, q.build kind = .ok st →
        (st.params.map (·.1)).Nodup ∧
          st.params.Sublist (q.bindings.entries.map fun e => (e.placeholder, e.value)) ∧
          ∀ name, name ∈ st.params.map (·.1) ↔ q.Refers kind name := by
  have supplied := h.supplied
  refine ⟨fun name held => supplied.bound held, fun name refused => ?_, fun st built => ?_⟩
  · obtain ⟨listed, unbound⟩ := of_build_unbound refused
    refine ⟨unbound, ?_⟩
    cases refers_iff.mpr ((mem_statementPlaceholders_iff h.wellFormed).mp listed) with
    | wheres _ member held => exact (unbound (supplied.bound (.wheres member held))).elim
    | written clause written => exact ⟨clause, written⟩
    | havings _ member held => exact (unbound (supplied.bound (.havings member held))).elim
    | sets _ member => exact (unbound (supplied.bound (.sets member))).elim
    | updates member => exact (unbound (supplied.bound (.updates member))).elim
  · have sub : st.params.Sublist (q.bindings.entries.map fun e => (e.placeholder, e.value)) := by
      rw [params_of_build built]
      exact List.filter_sublist.map _
    have names : (q.bindings.entries.map fun e => (e.placeholder, e.value)).map (·.1) =
        q.bindings.placeholders := by
      rw [List.map_map]
      rfl
    refine ⟨(names ▸ sub.map Prod.fst).nodup supplied.consistent.distinct, sub, fun name => ?_⟩
    exact (mem_params_iff h built).trans refers_iff.symm

/-- Values of every origin, among them those of a look-up that is refused midway. -/
def mixedSteps : List QueryStep :=
  [.setSource "visit" none, .addWhere (.eq "id" (.text "7")), .addWhereKeys [[("id", .text "8")], []],
    .addSet "note" (.text "x"), .addRawWhere "site = :site" .and, .bind "site" (.text "a") false,
    .addHaving (.eq "id" (.text "9")), .bind "site" (.text "b") false]

/-- Rows are deleted by the condition and the fragment, with the last value of the site. -/
theorem build_supplied_mixed :
    (empty.performAll mixedSteps).bindings.placeholders = ["id", "id_1", "note", "site", "id_2"] ∧
      (empty.performAll mixedSteps).build .delete =
        .ok ⟨"DELETE FROM \x60visit\x60 WHERE \x60id\x60 = :id AND (site = :site)",
          [("id", .text "7"), ("site", .text "b")]⟩ ∧
      ∀ name, name ∈ ["id", "site"] ↔ (empty.performAll mixedSteps).Refers .delete name := by
  have built : (empty.performAll mixedSteps).build .delete =
      .ok ⟨"DELETE FROM \x60visit\x60 WHERE \x60id\x60 = :id AND (site = :site)",
        [("id", .text "7"), ("site", .text "b")]⟩ := by decide +kernel
  obtain ⟨-, -, supplied⟩ := build_supplied ⟨mixedSteps, rfl⟩ .delete
  exact ⟨by decide +kernel, built, (supplied _ built).2.2⟩

end Query

end TableMapper
