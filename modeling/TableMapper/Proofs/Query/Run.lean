import TableMapper.Query.Step

/-! # Runs of steps

What adding a condition does, what several changes to a query answer, one after the other, and the queries
that changes can make. An invariant of such queries holds of the fresh one and is kept by every step,
refused ones included.
-/

namespace TableMapper

/-- What a condition can become, with the bindings that are left. -/
inductive Condition.Binds (c : Condition) (b : Bindings) : Term → Bindings → Prop
  | literal {op : Operator} {v : Value} {word : String} (test : c.test = .compare op v)
      (word_of : literal? v = some word) :
      Binds c b (.literal (Identifier.escape (Identifier.qualify c.table c.field)) op word) b
  | compare {op : Operator} {v : Value} (test : c.test = .compare op v) :
      Binds c b
        (.compare (Identifier.escape (Identifier.qualify c.table c.field)) op
          (b.bindFresh (Identifier.qualify c.table c.field) v).1)
        (b.bindFresh (Identifier.qualify c.table c.field) v).2
  | isIn {values : List Value} {negated : Bool} (test : c.test = .isIn values negated) :
      Binds c b
        (.isIn (Identifier.escape (Identifier.qualify c.table c.field)) negated
          (b.bindAll (Identifier.qualify c.table c.field) values).1)
        (b.bindAll (Identifier.qualify c.table c.field) values).2

theorem Condition.binds_of_bind {c : Condition} {b b' : Bindings} {p : Predicate}
    (h : c.bind b = .ok (p, b')) : p.concat = c.concat ∧ c.Binds b p.term b' := by
  obtain ⟨field, table, concat, test⟩ := c
  cases test with
  | compare op v =>
      cases hop : op.takesLiteral with
      | true =>
          simp only [Condition.bind, hop, if_true] at h
          cases hw : literal? v with
          | none => rw [hw] at h; cases h
          | some word =>
              rw [hw] at h
              cases h
              exact ⟨rfl, .literal rfl hw⟩
      | false =>
          simp only [Condition.bind, hop, Bool.false_eq_true, if_false, Bindings.bind, if_true] at h
          cases h
          exact ⟨rfl, .compare rfl⟩
  | isIn values negated =>
      simp only [Condition.bind] at h
      split at h
      · cases h
      · cases h
        exact ⟨rfl, .isIn rfl⟩

namespace Query

/-! ## Adding conditions -/

theorem exists_of_addWhere {q q' : Query} {c : Condition} (h : q.addWhere c = .ok q') :
    ∃ p b, c.bind q.bindings = .ok (p, b) ∧ q' = { q with wheres := q.wheres ++ [p], bindings := b } := by
  unfold Query.addWhere at h
  cases bound : c.bind q.bindings with
  | error e => rw [bound] at h; cases h
  | ok made =>
      rw [bound] at h
      cases h
      exact ⟨made.1, made.2, rfl, rfl⟩

theorem exists_of_addHaving {q q' : Query} {c : Condition} (h : q.addHaving c = .ok q') :
    ∃ p b, c.bind q.bindings = .ok (p, b) ∧ q' = { q with havings := q.havings ++ [p], bindings := b } := by
  unfold Query.addHaving at h
  cases bound : c.bind q.bindings with
  | error e => rw [bound] at h; cases h
  | ok made =>
      rw [bound] at h
      cases h
      exact ⟨made.1, made.2, rfl, rfl⟩

/-- The cells of several keys are bound key by key. -/
theorem exists_bindKey_of_mem {b : Bindings} {keys : List (List (String × Value))}
    {terms : List (List (String × String))} (h : (bindKeys b keys).1 = .ok terms) :
    ∀ cells ∈ terms, ∃ b' key, cells = (bindKey b' key).1 := by
  induction keys generalizing b terms with
  | nil =>
      cases h
      exact fun _ member => nomatch member
  | cons key keys ih =>
      unfold bindKeys at h
      split at h
      · cases h
      · cases rest : (bindKeys (bindKey b key).2 keys).1 with
        | error e => simp only [rest] at h; cases h
        | ok others =>
            simp only [rest] at h
            cases h
            intro cells member
            obtain rfl | old := List.mem_cons.mp member
            · exact ⟨b, key, rfl⟩
            · exact ih rest cells old

/-! ## Runs -/

/-- The answers of several changes in turn, and the query after them. -/
def run (q : Query) : List QueryStep → List (Except Error (Option String)) × Query
  | [] => ([], q)
  | step :: steps =>
    let (answer, q) := q.perform step
    let (answers, q) := run q steps
    (answer :: answers, q)

/-- The answers aside, a run is what the changes make of the query. -/
theorem run_snd (q : Query) (steps : List QueryStep) : (q.run steps).2 = q.performAll steps := by
  induction steps generalizing q with
  | nil => rfl
  | cons step steps ih => exact ih (q.perform step).2

/-- A query that changes have made of the fresh one. -/
def Reachable (q : Query) : Prop := ∃ steps, empty.performAll steps = q

/-- What the fresh query has and every step keeps, every reachable query has. -/
theorem Reachable.invariant {P : Query → Prop} (start : P empty)
    (keep : ∀ q step, P q → P (q.perform step).2) {q : Query} (h : q.Reachable) : P q := by
  obtain ⟨steps, rfl⟩ := h
  have after : ∀ (steps : List QueryStep) (q : Query), P q → P (q.performAll steps) := by
    intro steps
    induction steps with
    | nil => exact fun _ hq => hq
    | cons step steps ih => exact fun q hq => ih _ (keep q step hq)
  exact after steps _ start

/-- A change that may be refused keeps what it keeps when it is made. -/
theorem attempt_keeps {P : Query → Prop} {q : Query} (h : P q) {changed : Except Error Query}
    (kept : ∀ q', changed = .ok q' → P q') : P (q.attempt changed).2 := by
  cases changed with
  | error e => exact h
  | ok q' => exact kept q' rfl

end Query

end TableMapper
