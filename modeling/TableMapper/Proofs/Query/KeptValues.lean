import TableMapper.Proofs.Query.Freshness
import TableMapper.Proofs.Query.Run

/-! # Predicates keep their values

A predicate holds placeholders, and the values stand in the bindings that all parts of a query write to.
Looking its placeholders up there gives back what its condition asked for, whatever is bound, shared or
refused later, and predicates stand in the order in which they were asked for. The invariant is that no
field shares a placeholder of a predicate, so that later values never come under it.
-/

namespace TableMapper

/-- What a predicate tests, with values in place of placeholders. A placeholder without a value leaves a
gap. -/
inductive Filled where
  | compare (column : String) (op : Operator) (value : Option Value)
  | isIn (column : String) (negated : Bool) (values : List (Option Value))
  | anyKey (keys : List (List (String × Option Value)))
  | raw (fragment : String)
  deriving DecidableEq

/-! ## What is asked for -/

namespace Condition

def filled (c : Condition) : Filled :=
  let column := Identifier.escape (Identifier.qualify c.table c.field)
  match c.test with
  | .compare op v => .compare column op (some v)
  | .isIn values negated => .isIn column negated (values.map some)

/-- The value that a word of a statement stands for. -/
def wordValue? (word : String) : Option Value :=
  [Value.null, .bool true, .bool false].find? fun v => literal? v == some word

theorem wordValue?_of_literal? {v : Value} {word : String} (h : literal? v = some word) :
    wordValue? word = some v := by
  unfold literal? at h
  split at h <;> cases h <;> rfl

end Condition

namespace QueryStep

/-- The columns of a key, escaped, with the values asked for in them. -/
def askedKey (key : List (String × Value)) : List (String × Option Value) :=
  key.map fun c => (Identifier.escape c.1, some c.2)

/-- What a step adds to the WHERE clause, if it is not refused. -/
def asksWhere : QueryStep → List (Concat × Filled)
  | .addWhere c => [(c.concat, c.filled)]
  | .addIn field values => [(.and, (Condition.isIn field values).filled)]
  | .addRawWhere fragment concat => [(concat, .raw fragment)]
  | .addWhereKeys keys => [(.and, .anyKey (keys.map askedKey))]
  | _ => []

/-- What a step adds to the HAVING clause, if it is not refused. -/
def asksHaving : QueryStep → List (Concat × Filled)
  | .addHaving c => [(c.concat, c.filled)]
  | _ => []

end QueryStep

/-- What the steps that were not refused added, in order. -/
def accepted (asks : QueryStep → List (Concat × Filled)) :
    List (QueryStep × Except Error (Option String)) → List (Concat × Filled)
  | [] => []
  | (step, .ok _) :: rest => asks step ++ accepted asks rest
  | (_, .error _) :: rest => accepted asks rest

/-! ## What is found -/

/-- The columns of a key with what the bindings hold under its placeholders. -/
def foundKey (b : Bindings) (key : List (String × String)) : List (String × Option Value) :=
  key.map fun c => (c.1, b.get? c.2)

/-- A term with what the bindings hold under its placeholders. -/
def Term.filled (b : Bindings) : Term → Filled
  | .compare column op placeholder => .compare column op (b.get? placeholder)
  | .literal column op word => .compare column op (Condition.wordValue? word)
  | .isIn column negated placeholders => .isIn column negated (placeholders.map b.get?)
  | .anyKey keys => .anyKey (keys.map (foundKey b))
  | .raw fragment => .raw fragment

def Predicate.filled (b : Bindings) (p : Predicate) : Concat × Filled := (p.concat, p.term.filled b)

/-- No field shares a placeholder of the term, and each of them has a value. -/
def Term.Stays (b : Bindings) (t : Term) : Prop := ∀ p ∈ t.placeholders, b.Owns p

namespace Term

variable {b b' : Bindings} {t : Term}

theorem Stays.grows (h : t.Stays b) (later : b.Grows b') : t.Stays b' :=
  fun p member => later.owns p (h p member)

theorem Stays.filled_eq (h : t.Stays b) (later : b.Grows b') : t.filled b' = t.filled b := by
  cases t with
  | literal | raw => rfl
  | compare column op placeholder =>
      have same := later.get? placeholder (h placeholder (List.mem_singleton_self _))
      simp only [filled, same]
  | isIn column negated placeholders =>
      have same : placeholders.map b'.get? = placeholders.map b.get? := by
        apply List.map_congr_left
        exact fun p member => later.get? p (h p member)
      simp only [filled, same]
  | anyKey keys =>
      simp only [filled, Filled.anyKey.injEq]
      apply List.map_congr_left
      intro key hk
      apply List.map_congr_left
      intro c hc
      have own := h c.2 (List.mem_flatMap.mpr ⟨key, hk, List.mem_map_of_mem hc⟩)
      rw [later.get? c.2 own]

end Term

/-! ## Binding what is asked for -/

/-- Binding a condition gives a predicate that stays and shows what the condition asked for. -/
theorem Condition.filled_of_bind {c : Condition} {b b' : Bindings} {p : Predicate} (sound : b.Sound)
    (bound : c.bind b = .ok (p, b')) :
    b.Grows b' ∧ p.term.Stays b' ∧ p.filled b' = (c.concat, c.filled) := by
  obtain ⟨concat, term⟩ := p
  obtain ⟨rfl, made⟩ := Condition.binds_of_bind bound
  cases made with
  | literal test word_of =>
      refine ⟨.refl sound, fun _ member => (List.not_mem_nil member).elim, ?_⟩
      simp only [Predicate.filled, Term.filled, Condition.filled, test, wordValue?_of_literal? word_of]
  | @compare op v test =>
      obtain ⟨grown, own, held⟩ := sound.bindFresh (Identifier.qualify c.table c.field) v
      refine ⟨grown, fun p member => ?_, ?_⟩
      · rwa [List.mem_singleton.mp member]
      · simp only [Predicate.filled, Term.filled, Condition.filled, test, held]
  | @isIn values negated test =>
      obtain ⟨grown, owns, held⟩ := sound.bindAll (Identifier.qualify c.table c.field) values
      refine ⟨grown, owns, ?_⟩
      simp only [Predicate.filled, Term.filled, Condition.filled, test, held]

namespace Query

theorem filled_bindKey {b : Bindings} (sound : b.Sound) (key : List (String × Value)) :
    b.Grows (bindKey b key).2 ∧ (∀ c ∈ (bindKey b key).1, (bindKey b key).2.Owns c.2) ∧
      foundKey (bindKey b key).2 (bindKey b key).1 = QueryStep.askedKey key := by
  induction key generalizing b with
  | nil => exact ⟨.refl sound, fun _ member => (List.not_mem_nil member).elim, rfl⟩
  | cons cell key ih =>
      obtain ⟨column, v⟩ := cell
      obtain ⟨first, own, held⟩ := sound.bindFresh column v
      obtain ⟨rest, owns, shown⟩ := ih first.sound
      refine ⟨first.trans rest, ?_, ?_⟩
      · intro c member
        obtain rfl | later := List.mem_cons.mp member
        · exact rest.owns _ own
        · exact owns c later
      · simp only [foundKey, QueryStep.askedKey] at shown ⊢
        simp only [bindKey, List.map_cons, shown, rest.get? _ own, held]

theorem filled_bindKeys {b : Bindings} (sound : b.Sound) (keys : List (List (String × Value))) :
    b.Grows (bindKeys b keys).2 ∧ ∀ terms, (bindKeys b keys).1 = .ok terms →
      (Term.anyKey terms).Stays (bindKeys b keys).2 ∧
        (Term.anyKey terms).filled (bindKeys b keys).2 = .anyKey (keys.map QueryStep.askedKey) := by
  induction keys generalizing b with
  | nil =>
      refine ⟨.refl sound, ?_⟩
      intro terms bound
      cases bound
      exact ⟨fun _ member => (List.not_mem_nil member).elim, rfl⟩
  | cons key keys ih =>
      unfold bindKeys
      split
      · refine ⟨.refl sound, ?_⟩
        intro terms bound
        cases bound
      · obtain ⟨first, owns, shown⟩ := filled_bindKey sound key
        obtain ⟨rest, others⟩ := ih first.sound
        refine ⟨first.trans rest, fun terms bound => ?_⟩
        cases made : (bindKeys (bindKey b key).2 keys).1 with
        | error e => simp only [made] at bound; cases bound
        | ok more =>
            simp only [made] at bound
            cases bound
            obtain ⟨stays, filled⟩ := others more made
            -- the first key was bound before the others, so its values stand there as they did
            have stayed : (Term.anyKey [(bindKey b key).1]).Stays (bindKey b key).2 := by
              intro p member
              simp only [Term.placeholders, List.flatMap_singleton, List.mem_map] at member
              obtain ⟨c, hc, rfl⟩ := member
              exact owns c hc
            have still := stayed.filled_eq rest
            simp only [Term.filled, Filled.anyKey.injEq, List.map_cons, List.map_nil, List.cons.injEq,
              and_true] at still filled ⊢
            refine ⟨?_, still.trans shown, filled⟩
            intro p member
            simp only [Term.placeholders, List.flatMap_cons, List.mem_append] at member
            obtain here | later := member
            · exact stayed.grows rest p (by simpa only [Term.placeholders, List.flatMap_singleton] using here)
            · exact stays p later

/-! ## What a step keeps -/

/-- The predicates stay and show what was asked for, in order. -/
def Shows (b : Bindings) (ps : List Predicate) (asked : List (Concat × Filled)) : Prop :=
  (∀ p ∈ ps, p.term.Stays b) ∧ ps.map (Predicate.filled b) = asked

theorem Shows.grows {b b' : Bindings} {ps : List Predicate} {asked : List (Concat × Filled)}
    (h : Shows b ps asked) (later : b.Grows b') : Shows b' ps asked := by
  refine ⟨fun p member => (h.1 p member).grows later, ?_⟩
  rw [← h.2]
  apply List.map_congr_left
  intro p member
  simp only [Predicate.filled, (h.1 p member).filled_eq later]

theorem Shows.concat {b : Bindings} {ps : List Predicate} {asked : List (Concat × Filled)} {p : Predicate}
    {f : Concat × Filled} (h : Shows b ps asked) (stays : p.term.Stays b) (shown : p.filled b = f) :
    Shows b (ps ++ [p]) (asked ++ [f]) := by
  refine ⟨fun p' member => ?_, ?_⟩
  · obtain old | new := List.mem_append.mp member
    · exact h.1 p' old
    · rwa [List.mem_singleton.mp new]
  · rw [List.map_append, List.map_singleton, h.2, shown]

/-- Both clauses show what was asked for, and the bindings are sound. -/
structure Keeps (q : Query) (wheres havings : List (Concat × Filled)) : Prop where
  sound : q.bindings.Sound
  wheres : Shows q.bindings q.wheres wheres
  havings : Shows q.bindings q.havings havings

theorem keeps_empty : empty.Keeps [] [] :=
  ⟨fun _ member => (List.not_mem_nil member).elim, ⟨fun _ member => (List.not_mem_nil member).elim, rfl⟩,
    ⟨fun _ member => (List.not_mem_nil member).elim, rfl⟩⟩

section

variable {q : Query} {wheres havings : List (Concat × Filled)}

/-- Bindings that grow keep what both clauses show. -/
theorem Keeps.grows (h : q.Keeps wheres havings) {b : Bindings} (later : q.bindings.Grows b) :
    { q with bindings := b }.Keeps wheres havings :=
  ⟨later.sound, h.wheres.grows later, h.havings.grows later⟩

theorem Keeps.addWhere (h : q.Keeps wheres havings) {c : Condition} {q' : Query}
    (added : q.addWhere c = .ok q') : q'.Keeps (wheres ++ [(c.concat, c.filled)]) havings := by
  obtain ⟨p, b, bound, rfl⟩ := exists_of_addWhere added
  obtain ⟨later, stays, shown⟩ := Condition.filled_of_bind h.sound bound
  exact ⟨later.sound, (h.wheres.grows later).concat stays shown, h.havings.grows later⟩

theorem Keeps.addHaving (h : q.Keeps wheres havings) {c : Condition} {q' : Query}
    (added : q.addHaving c = .ok q') : q'.Keeps wheres (havings ++ [(c.concat, c.filled)]) := by
  obtain ⟨p, b, bound, rfl⟩ := exists_of_addHaving added
  obtain ⟨later, stays, shown⟩ := Condition.filled_of_bind h.sound bound
  exact ⟨later.sound, h.wheres.grows later, (h.havings.grows later).concat stays shown⟩

/-- A change that may be refused adds what its step asked for, or nothing. -/
theorem Keeps.attempt (h : q.Keeps wheres havings) {step : QueryStep} {changed : Except Error Query}
    (made : ∀ q', changed = .ok q' → q'.Keeps (wheres ++ step.asksWhere) (havings ++ step.asksHaving)) :
    (q.attempt changed).2.Keeps (wheres ++ accepted QueryStep.asksWhere [(step, (q.attempt changed).1)])
      (havings ++ accepted QueryStep.asksHaving [(step, (q.attempt changed).1)]) := by
  cases changed with
  | error e => simpa only [Query.attempt, accepted, List.append_nil] using h
  | ok q' => simpa only [Query.attempt, accepted, List.append_nil] using made q' rfl

/-- What both clauses show after a step: what they showed, and what the step asked for unless it was
refused. -/
theorem Keeps.perform (h : q.Keeps wheres havings) {step : QueryStep} (going : step ≠ .clear) :
    (q.perform step).2.Keeps (wheres ++ accepted QueryStep.asksWhere [(step, (q.perform step).1)])
      (havings ++ accepted QueryStep.asksHaving [(step, (q.perform step).1)]) := by
  have none : ∀ asked : List (Concat × Filled), asked ++ [] = asked := List.append_nil
  cases step with
  | clear => exact (going rfl).elim
  | addWhere c =>
      apply h.attempt
      intro q' added
      simpa only [QueryStep.asksWhere, QueryStep.asksHaving, none] using h.addWhere added
  | addIn field values =>
      apply h.attempt
      intro q' added
      simp only [QueryStep.asksWhere, QueryStep.asksHaving, none]
      exact h.addWhere added
  | addHaving c =>
      apply h.attempt
      intro q' added
      simpa only [QueryStep.asksWhere, QueryStep.asksHaving, none] using h.addHaving added
  | addRawWhere fragment concat =>
      simp only [Query.perform, accepted, none, QueryStep.asksWhere, QueryStep.asksHaving]
      exact { h with wheres := h.wheres.concat (fun _ member => (List.not_mem_nil member).elim) rfl }
  | addWhereKeys keys =>
      obtain ⟨later, bound⟩ := filled_bindKeys h.sound keys
      have left := h.grows later
      simp only [Query.perform, addWhereKeys]
      cases made : (bindKeys q.bindings keys).1 with
      | error e => simpa only [made, Except.map, accepted, none] using left
      | ok terms =>
          cases terms with
          | nil => simpa only [made, Except.map, accepted, none] using left
          | cons term terms =>
              obtain ⟨stays, shown⟩ := bound _ made
              simp only [Except.map, accepted, none, QueryStep.asksWhere, QueryStep.asksHaving]
              refine { left with wheres := left.wheres.concat stays ?_ }
              rw [← shown]
              rfl
  | addSet field v =>
      -- the value may take the place of an earlier one, under a placeholder that no predicate has
      simp only [Query.perform, addSet, accepted, none, QueryStep.asksWhere, QueryStep.asksHaving]
      exact { h.grows (h.sound.bindShared field v) with }
  | addUpdate field v =>
      simp only [Query.perform, addUpdate, accepted, none, QueryStep.asksWhere, QueryStep.asksHaving]
      exact { h.grows (h.sound.bindShared (Identifier.qualify (some "update") field) v) with }
  | bind field v unique =>
      simp only [Query.perform, bind, accepted, none, QueryStep.asksWhere, QueryStep.asksHaving]
      exact h.grows (h.sound.bind field v unique)
  | setSource | addField | setCalcFoundRows | addJoin | addOrder | addGroup | setLimit | setListIndex =>
      simp only [Query.perform, accepted, none, QueryStep.asksWhere, QueryStep.asksHaving]
      exact { h with }

theorem accepted_cons (asks : QueryStep → List (Concat × Filled)) (x : QueryStep × Except Error (Option String))
    (rest : List (QueryStep × Except Error (Option String))) :
    accepted asks (x :: rest) = accepted asks [x] ++ accepted asks rest := by
  obtain ⟨step, answer⟩ := x
  cases answer with
  | error e => rfl
  | ok placeholder => simp only [accepted, List.append_nil]

theorem Keeps.run (h : q.Keeps wheres havings) {steps : List QueryStep} (going : .clear ∉ steps) :
    (q.run steps).2.Keeps (wheres ++ accepted QueryStep.asksWhere (steps.zip (q.run steps).1))
      (havings ++ accepted QueryStep.asksHaving (steps.zip (q.run steps).1)) := by
  induction steps generalizing q wheres havings with
  | nil => simpa only [Query.run, List.zip_nil_left, accepted, List.append_nil] using h
  | cons step steps ih =>
      have stays : step ≠ .clear := fun same => going (same ▸ List.mem_cons_self ..)
      have first := h.perform stays
      have rest := ih first fun member => going (List.mem_cons_of_mem _ member)
      simp only [Query.run, List.zip_cons_cons]
      rw [accepted_cons QueryStep.asksWhere, accepted_cons QueryStep.asksHaving, ← List.append_assoc,
        ← List.append_assoc]
      exact rest

end

/-- Predicates keep their values. After any steps that do not clear the query, looking up the placeholders
of its WHERE and HAVING predicates shows what the steps asked for that were not refused, in their order and
with all of their values. -/
theorem filled_run (steps : List QueryStep) (going : .clear ∉ steps) :
    (empty.run steps).2.wheres.map (Predicate.filled (empty.run steps).2.bindings) =
        accepted QueryStep.asksWhere (steps.zip (empty.run steps).1) ∧
      (empty.run steps).2.havings.map (Predicate.filled (empty.run steps).2.bindings) =
        accepted QueryStep.asksHaving (steps.zip (empty.run steps).1) := by
  have kept := keeps_empty.run going
  exact ⟨kept.wheres.2, kept.havings.2⟩

/-- Conditions on a field that is also written and bound by hand, with a look-up that is refused midway. -/
def sharedSteps : List QueryStep :=
  [.addWhere (.eq "id" (.text "a")), .addSet "id" (.text "b"), .bind "id" (.text "c") false,
    .addWhereKeys [[("id", .text "d")], []], .addIn "id" [.text "e", .text "f"], .bind "id_1" (.text "g") true,
    .addHaving { field := "id", concat := .or, test := .compare .is .null }, .addSet "id" (.text "h")]

/-- The values written to the field later do not come under its conditions. -/
theorem filled_run_sharedSteps :
    .clear ∉ sharedSteps ∧
      (empty.run sharedSteps).2.wheres.map (Predicate.filled (empty.run sharedSteps).2.bindings) =
        [(.and, .compare "\x60id\x60" .eq (some (.text "a"))),
          (.and, .isIn "\x60id\x60" false [some (.text "e"), some (.text "f")])] ∧
      (empty.run sharedSteps).2.havings.map (Predicate.filled (empty.run sharedSteps).2.bindings) =
        [(.or, .compare "\x60id\x60" .is (some .null))] := by
  have going : .clear ∉ sharedSteps := by decide
  obtain ⟨wheres, havings⟩ := filled_run sharedSteps going
  rw [wheres, havings]
  exact ⟨going, by decide +kernel, by decide +kernel⟩

end Query

end TableMapper
