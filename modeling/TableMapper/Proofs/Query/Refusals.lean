import TableMapper.Proofs.Outcome
import TableMapper.Proofs.Query.Freshness
import TableMapper.Proofs.Query.ValueIndependence

/-! # Refused steps

A step that is refused changes no clause, and a refused condition binds nothing. A look-up by several keys
is read key by key, though, and the keys before one without columns stay bound when it is refused. What
stays behind shows in the list of bindings, and in a statement that lacked just such a placeholder.
-/

namespace TableMapper

namespace QueryStep

/-- The columns and values in front of the first key that has none. -/
def leftBehind : QueryStep → List (String × Value)
  | .addWhereKeys keys => (keys.takeWhile fun key => !key.isEmpty).flatten
  | _ => []

end QueryStep

namespace Query

/-- No reader tells the queries apart. -/
structure Alike (q q' : Query) : Prop where
  entries : q'.bindings.entries = q.bindings.entries
  parts : ∀ part, q'.render part = q.render part
  builds : ∀ kind, q'.build kind = q.build kind

/-! ## What stays bound -/

theorem bindKey_append (b : Bindings) (key cells : List (String × Value)) :
    (bindKey b (key ++ cells)).2 = (bindKey (bindKey b key).2 cells).2 := by
  induction key generalizing b with
  | nil => rfl
  | cons cell key ih => exact ih (b.bindFresh cell.1 cell.2).2

theorem bindKeys_of_error {b : Bindings} {keys : List (List (String × Value))} {e : Error}
    (refused : (bindKeys b keys).1 = .error e) :
    (bindKeys b keys).2 = (bindKey b (QueryStep.addWhereKeys keys).leftBehind).2 := by
  induction keys generalizing b e with
  | nil => cases refused
  | cons key keys ih =>
      unfold bindKeys at refused ⊢
      cases blank : key.isEmpty with
      | true => simp [QueryStep.leftBehind, blank, bindKey]
      | false =>
          simp only [blank, Bool.false_eq_true, if_false] at refused ⊢
          cases rest : (bindKeys (bindKey b key).2 keys).1 with
          | ok terms => simp [rest, Except.map] at refused
          | error e' =>
              simp only [ih rest, QueryStep.leftBehind, List.takeWhile_cons, blank, Bool.not_false, if_true,
                List.flatten_cons, bindKey_append]

theorem eq_nil_of_bindKeys {b : Bindings} {keys : List (List (String × Value))}
    (none : (bindKeys b keys).1 = .ok []) : keys = [] := by
  cases keys with
  | nil => rfl
  | cons key keys =>
      unfold bindKeys at none
      split at none
      · cases none
      · cases rest : (bindKeys (bindKey b key).2 keys).1 <;> simp [rest, Except.map] at none

/-- A refused step leaves the query as it was but for the keys that it had bound. -/
theorem perform_of_refused {q : Query} {step : QueryStep} {e : Error}
    (refused : (q.perform step).1 = .error e) :
    (q.perform step).2 = { q with bindings := (bindKey q.bindings step.leftBehind).2 } := by
  have attempted : ∀ changed, (q.attempt changed).1 = .error e → (q.attempt changed).2 = q := by
    intro changed refused
    cases changed with
    | error => rfl
    | ok => cases refused
  cases step with
  | addWhere | addHaving | addIn => exact attempted _ refused
  | addWhereKeys keys =>
      simp only [perform, addWhereKeys] at refused ⊢
      cases bound : (bindKeys q.bindings keys).1 with
      | error => simp only [bindKeys_of_error bound]
      | ok terms =>
          cases terms with
          | nil =>
              obtain rfl := eq_nil_of_bindKeys bound
              rfl
          | cons => simp [bound, Except.map] at refused
  | setSource | addField | setCalcFoundRows | addRawWhere | addJoin | addOrder | addGroup | setLimit
  | addSet | addUpdate | bind | setListIndex | clear => cases refused

/-- Cells are bound behind what was there, each for its column and under a free placeholder. -/
theorem exists_entries_bindKey (b : Bindings) (cells : List (String × Value)) :
    ∃ more, (bindKey b cells).2.entries = b.entries ++ more ∧
      more.map (fun e => (e.field, e.value)) = cells ∧ ∀ e ∈ more, e.placeholder ∉ b.placeholders := by
  induction cells generalizing b with
  | nil => exact ⟨[], by simp [bindKey]⟩
  | cons cell cells ih =>
      obtain ⟨column, v⟩ := cell
      obtain ⟨more, entries, held, free⟩ := ih (b.bindFresh column v).2
      have first : (b.bindFresh column v).2.entries =
          b.entries ++ [⟨b.allocate (Identifier.placeholderBase column), column, v⟩] := rfl
      refine ⟨⟨b.allocate (Identifier.placeholderBase column), column, v⟩ :: more, ?_, ?_, ?_⟩
      · simp only [bindKey, entries, first, List.append_assoc, List.singleton_append]
      · simp [held]
      · intro e member
        obtain rfl | later := List.mem_cons.mp member
        · exact b.allocate_not_mem _
        · intro taken
          apply free e later
          simp only [Bindings.placeholders, first, List.map_append]
          exact List.mem_append_left _ taken

/-! ## What is built then -/

/-- No clause is refused for want of a value. -/
theorem clauses_ne_unbound (q : Query) (kind : StatementKind) (name : String) :
    q.clauses kind ≠ .error (.invalidQuery (.unbound name)) := by
  intro refused
  have source : q.renderSource ≠ .error (.invalidQuery (.unbound name)) := by
    unfold renderSource
    split <;> simp
  have target : q.target ≠ .error (.invalidQuery (.unbound name)) := by
    unfold Query.target
    split <;> simp
  have wheres : ∀ required, q.renderWhere required ≠ .error (.invalidQuery (.unbound name)) := by
    intro required
    unfold renderWhere
    split <;> simp
  have sets : q.renderSets ≠ .error (.invalidQuery (.unbound name)) := by
    unfold renderSets
    split <;> simp
  have fields : ∀ prefixed, q.renderFields prefixed false ≠ .error (.invalidQuery (.unbound name)) := by
    intro prefixed
    simp [renderFields, FieldList.render]
  -- the error of a sequence of parts is the error of one of them
  have part : ∀ {α : Type} {x : Except Error α} {next : α → Except Error (List String)},
      x ≠ .error (.invalidQuery (.unbound name)) → x >>= next = .error (.invalidQuery (.unbound name)) →
        ∃ a, next a = .error (.invalidQuery (.unbound name)) := by
    intro α x next fine failed
    obtain failed | ⟨a, -, failed⟩ := error_of_bind failed
    · exact (fine failed).elim
    · exact ⟨a, failed⟩
  cases kind with
  | select =>
      obtain ⟨_, refused⟩ := part (fields _) refused
      obtain ⟨_, refused⟩ := part source refused
      obtain ⟨_, refused⟩ := part (wheres _) refused
      cases refused
  | count =>
      obtain ⟨_, refused⟩ := part source refused
      obtain ⟨_, refused⟩ := part (wheres _) refused
      cases refused
  | insert =>
      obtain ⟨_, refused⟩ := part target refused
      obtain ⟨_, refused⟩ := part sets refused
      cases refused
  | update =>
      obtain ⟨_, refused⟩ := part target refused
      obtain ⟨_, refused⟩ := part sets refused
      obtain ⟨_, refused⟩ := part (wheres _) refused
      cases refused
  | delete =>
      obtain ⟨_, refused⟩ := part target refused
      obtain ⟨_, refused⟩ := part (wheres _) refused
      cases refused

section

variable {q : Query} {b : Bindings} {more : List Binding}

theorem contains_of_entries (entries : b.entries = q.bindings.entries ++ more) (name : String) :
    b.contains name = (q.bindings.contains name || more.any (·.placeholder == name)) := by
  simp [Bindings.contains, entries]

/-- The first name without a value is another one only if it is the placeholder of a new binding. -/
theorem find?_unbound_eq_iff (entries : b.entries = q.bindings.entries ++ more) (names : List String) :
    names.find? (fun name => !b.contains name) = names.find? (fun name => !q.bindings.contains name) ↔
      ∀ e ∈ more, names.find? (fun name => !q.bindings.contains name) ≠ some e.placeholder := by
  constructor
  · intro same e member missing
    have lacking := List.find?_some (same.trans missing)
    have held : more.any (fun d => d.placeholder == e.placeholder) = true :=
      List.any_eq_true.mpr ⟨e, member, beq_self_eq_true _⟩
    simp [contains_of_entries entries, held] at lacking
  · intro other
    cases missing : names.find? fun name => !q.bindings.contains name with
    | none =>
        simp only [List.find?_eq_none, Bool.not_eq_true', Bool.not_eq_false] at missing ⊢
        intro name member
        simp [contains_of_entries entries, missing name member]
    | some name =>
        obtain ⟨absent, before, rest, whole, earlier⟩ := List.find?_eq_some_iff_append.mp missing
        have unheld : more.any (fun d => d.placeholder == name) = false := by
          simp only [List.any_eq_false, beq_iff_eq]
          rintro d member rfl
          exact other d member missing
        apply List.find?_eq_some_iff_append.mpr
        refine ⟨?_, before, rest, whole, ?_⟩
        · simpa [contains_of_entries entries, unheld] using absent
        · intro held member
          have old := earlier held member
          simp only [Bool.not_not] at old
          simp [contains_of_entries entries, old]

/-- New bindings behind the old ones change a statement only where it lacked one of their placeholders. -/
theorem build_of_more_bound (entries : b.entries = q.bindings.entries ++ more)
    (free : ∀ e ∈ more, e.placeholder ∉ q.bindings.placeholders) (kind : StatementKind) :
    { q with bindings := b }.build kind = q.build kind ↔
      ∀ e ∈ more, q.build kind ≠ .error (.invalidQuery (.unbound e.placeholder)) := by
  have clauses : { q with bindings := b }.clauses kind = q.clauses kind := by cases kind <;> rfl
  have names : { q with bindings := b }.statementPlaceholders kind = q.statementPlaceholders kind := by
    cases kind <;> rfl
  have unbound := q.clauses_ne_unbound kind
  have search := find?_unbound_eq_iff entries (q.statementPlaceholders kind)
  simp only [build, clauses, names]
  cases rendered : q.clauses kind with
  | error e =>
      simp only [Bind.bind, Except.bind, true_iff]
      intro d _ same
      exact unbound d.placeholder (rendered.trans (congrArg Except.error (Except.error.inj same)))
  | ok texts =>
      simp only [Bind.bind, Except.bind]
      cases missing : (q.statementPlaceholders kind).find? fun name => !q.bindings.contains name with
      | none =>
          have still := search.mpr (by simp [missing])
          -- every placeholder of the statement had a value, so none of the new ones is among them
          have unnamed : ∀ e ∈ more, e.placeholder ∉ q.statementPlaceholders kind := by
            intro e member named
            have bound := List.find?_eq_none.mp missing _ named
            simp only [Bool.not_eq_true', Bool.not_eq_false] at bound
            exact free e member (Bindings.contains_iff.mp bound)
          simpa [still, missing, entries] using unnamed
      | some name =>
          simp only [missing] at search
          cases found : (q.statementPlaceholders kind).find? fun name => !b.contains name with
          | none => simpa [found, eq_comm] using search
          | some other => simpa [found] using search

end

/-! ## What shows -/

/-- What a refused step leaves: every part renders as before, and behind the old bindings stand the columns
and values of the keys in front of the one that was refused. A statement changes only where it lacked the
placeholder of one of those. No reader tells that the step was tried exactly when nothing was left. -/
theorem refused_alike_iff {q : Query} {step : QueryStep} {e : Error}
    (refused : (q.perform step).1 = .error e) :
    (∀ part, (q.perform step).2.render part = q.render part) ∧
      ∃ more, (q.perform step).2.bindings.entries = q.bindings.entries ++ more ∧
        more.map (fun b => (b.field, b.value)) = step.leftBehind ∧
        (∀ kind, (q.perform step).2.build kind = q.build kind ↔
          ∀ b ∈ more, q.build kind ≠ .error (.invalidQuery (.unbound b.placeholder))) ∧
        (q.Alike (q.perform step).2 ↔ step.leftBehind = []) := by
  obtain ⟨more, entries, held, free⟩ := exists_entries_bindKey q.bindings step.leftBehind
  rw [perform_of_refused refused]
  have parts : ∀ part, { q with bindings := (bindKey q.bindings step.leftBehind).2 }.render part =
      q.render part := by
    intro part
    cases part <;> rfl
  have builds := build_of_more_bound entries free
  refine ⟨parts, more, entries, held, builds, ?_⟩
  constructor
  · intro alike
    have none : more = [] := by simpa [entries] using alike.entries
    rw [← held, none, List.map_nil]
  · intro nothing
    obtain rfl : more = [] := by simpa [nothing] using held
    exact ⟨by simpa using entries, parts, fun kind => (builds kind).mpr fun _ member => nomatch member⟩

/-- A query with a condition written by hand whose placeholder has no value. -/
def unboundQuery : Query := empty.performAll [.setSource "visit" none, .addRawWhere "owner = :id" .and]

/-- A look-up of which the second key has no columns. -/
def brokenLookup : QueryStep := .addWhereKeys [[("id", .text "7"), ("site", .text "a")], [], [("id", .text "8")]]

/-- The first key of a refused look-up stays bound, the third was never read. -/
theorem refused_alike_brokenLookup :
    (unboundQuery.perform brokenLookup).1 = .error (.invalidQuery .emptyLookupKey) ∧
      brokenLookup.leftBehind = [("id", .text "7"), ("site", .text "a")] ∧
      (unboundQuery.perform brokenLookup).2.render (.wheres true) = unboundQuery.render (.wheres true) ∧
      ¬ unboundQuery.Alike (unboundQuery.perform brokenLookup).2 := by
  have refused : (unboundQuery.perform brokenLookup).1 = .error (.invalidQuery .emptyLookupKey) := by
    decide +kernel
  obtain ⟨parts, more, -, -, -, alike⟩ := refused_alike_iff refused
  exact ⟨refused, rfl, parts _, fun same => List.cons_ne_nil _ _ (alike.mp same)⟩

/-- Not every refused step goes unseen: what a look-up has left behind is the value that a condition written
by hand was lacking, and rows are deleted by it. -/
theorem refused_not_alike :
    ¬ ∀ (q : Query) (step : QueryStep) (e : Error), q.Reachable → (q.perform step).1 = .error e →
      q.Alike (q.perform step).2 := by
  intro every
  have refused : (unboundQuery.perform brokenLookup).1 = .error (.invalidQuery .emptyLookupKey) := by
    decide +kernel
  have before : unboundQuery.build .delete = .error (.invalidQuery (.unbound "id")) := by decide +kernel
  have after : (unboundQuery.perform brokenLookup).2.build .delete =
      .ok ⟨"DELETE FROM \x60visit\x60 WHERE (owner = :id)", [("id", .text "7")]⟩ := by decide +kernel
  have alike : unboundQuery.Alike (unboundQuery.perform brokenLookup).2 := every _ _ _ ⟨_, rfl⟩ refused
  have same := alike.builds .delete
  rw [before, after] at same
  cases same

end Query

end TableMapper
