import TableMapper.Proofs.Query.Alternatives
import TableMapper.Proofs.Query.WellFormed

/-! # Predicates attached with AND

A WHERE clause is one flat text, and AND binds tighter than OR. A predicate attached with AND therefore
restricts the alternative behind the last OR and leaves the earlier ones as they are; it narrows the whole
clause exactly if each earlier alternative has the same predicate already.
-/

namespace TableMapper

namespace Alternatives

/-! ## One more predicate -/

/-- AND adds a predicate to the last alternative, OR opens one for it. -/
def attach (before : List (List String)) (concat : Concat) (predicate : String) : List (List String) :=
  match concat with
  | .and => before.dropLast ++ [before.getLastD [] ++ [predicate]]
  | .or => before ++ [[predicate]]

/-- The alternatives of predicates in their order. The first has nothing to attach to. -/
def ofPredicates : List Predicate → List (List String)
  | [] => [[]]
  | p :: ps => ps.foldl (fun before q => attach before q.concat q.term.render) [[p.term.render]]

/-- What follows a list without separators of its own joins the last part. -/
theorem splitOn_append {α : Type} [BEq α] [LawfulBEq α] {separator : α} {vs : List α} (free : separator ∉ vs)
    (ws : List α) : ∃ earlier last, ws.splitOn separator = earlier ++ [last] ∧
      (ws ++ vs).splitOn separator = earlier ++ [last ++ vs] := by
  by_cases member : separator ∈ ws
  · -- the last separator is the first one from behind
    obtain ⟨last, us, cut, clear⟩ := List.eq_append_cons_of_mem (List.mem_reverse.mpr member)
    obtain rfl : ws = us.reverse ++ separator :: last.reverse := by
      rw [← ws.reverse_reverse, cut, List.reverse_append, List.reverse_cons, List.append_assoc,
        List.singleton_append]
    have clear' : separator ∉ last.reverse := fun found => clear (List.mem_reverse.mp found)
    have both : separator ∉ last.reverse ++ vs := fun found =>
      (List.mem_append.mp found).elim clear' free
    refine ⟨us.reverse.splitOn separator, last.reverse, ?_, ?_⟩
    · rw [List.splitOn_append_cons_self, List.splitOn_eq_singleton clear']
    · rw [List.append_assoc, List.cons_append, List.splitOn_append_cons_self, List.splitOn_eq_singleton both]
  · have both : separator ∉ ws ++ vs := fun found => (List.mem_append.mp found).elim member free
    exact ⟨[], ws, List.splitOn_eq_singleton member, List.splitOn_eq_singleton both⟩

theorem textWords_sql (c : Concat) : textWords c.sql = some [c.sql.toList] := by cases c <;> rfl

/-- Behind a text that can be read, a word of attachment and a predicate are read as attaching it. -/
theorem read_attach {text term : String} {before : List (List String)} (h : read text = some before)
    (term_unjoined : Unjoined term) (c : Concat) :
    read (text ++ " " ++ c.sql ++ " " ++ term) = some (attach before c term) := by
  obtain ⟨ws, words, rfl⟩ := Option.map_eq_some_iff.mp h
  obtain ⟨vs, read_term, free⟩ := term_unjoined
  have joined := textWords_join (textWords_join words (textWords_sql c)) read_term
  have whole : predicates vs = [term] := by
    rw [predicates, List.splitOn_eq_singleton (free .and), List.map_singleton, ofWords_textWords read_term]
  rw [read, joined, Option.map_some, List.append_assoc, List.singleton_append]
  cases c with
  | or =>
      rw [List.splitOn_append_cons_self, List.splitOn_eq_singleton (free .or), List.map_append,
        List.map_singleton, whole]
      rfl
  | and =>
      have clear : Concat.or.sql.toList ∉ Concat.and.sql.toList :: vs := by
        rw [List.mem_cons, not_or]
        exact ⟨by decide, free .or⟩
      obtain ⟨earlier, last, cut, grown⟩ := splitOn_append clear ws
      have last_grown : predicates (last ++ Concat.and.sql.toList :: vs) = predicates last ++ [term] := by
        rw [← whole, predicates, List.splitOn_append_cons_self, List.map_append]
        rfl
      rw [grown, cut, List.map_append, List.map_append, List.map_singleton, List.map_singleton, attach,
        List.dropLast_concat, List.getLastD_concat, last_grown]

theorem read_of_unjoined {text : String} (h : Unjoined text) : read text = some [[text]] := by
  obtain ⟨ws, words, free⟩ := h
  rw [read, words, Option.map_some, List.splitOn_eq_singleton (free .or), List.map_singleton, predicates,
    List.splitOn_eq_singleton (free .and), List.map_singleton, ofWords_textWords words]

theorem read_renderPredicates {p : Predicate} {ps : List Predicate}
    (h : ∀ q ∈ p :: ps, Unjoined q.term.render) :
    read (renderPredicates (p :: ps)) = some (ofPredicates (p :: ps)) := by
  -- by induction on what is still to come, behind a text that was read
  have behind : ∀ (ps : List Predicate) (text : String) (before : List (List String)),
      (∀ q ∈ ps, Unjoined q.term.render) → read text = some before →
      read (text ++ String.join (ps.map fun q => " " ++ q.concat.sql ++ " " ++ q.term.render)) =
        some (ps.foldl (fun before q => attach before q.concat q.term.render) before) := by
    intro ps
    induction ps with
    | nil =>
        intro text before _ here
        rw [List.map_nil, String.join_nil, String.append_empty]
        exact here
    | cons q ps ih =>
        intro text before each here
        have next := read_attach here (each q (List.mem_cons_self ..)) q.concat
        rw [List.map_cons, String.join_cons, List.foldl_cons, ← String.append_assoc]
        simp only [← String.append_assoc] at next ⊢
        exact ih _ _ (fun r member => each r (List.mem_cons_of_mem _ member)) next
  have first := read_of_unjoined (h p (List.mem_cons_self ..))
  exact behind ps _ _ (fun q member => h q (List.mem_cons_of_mem _ member)) first

theorem readClause_renderClause (keyword : String) (ps : List Predicate) :
    readClause keyword (renderClause keyword ps) =
      if ps = [] then some [[]] else read (renderPredicates ps) := by
  cases ps with
  | nil => rfl
  | cons p ps =>
      have filled : keyword ++ " " ++ renderPredicates (p :: ps) ≠ "" := by
        intro none
        have chars := congrArg String.toList none
        rw [String.toList_append, String.toList_append] at chars
        exact List.cons_ne_nil _ _ (List.append_eq_nil_iff.mp (List.append_eq_nil_iff.mp chars).1).2
      rw [renderClause, List.isEmpty_cons, if_neg Bool.false_ne_true, readClause, if_neg filled,
        Text.dropPrefix?_eq_some_iff.mpr rfl, Option.bind_some, if_neg (List.cons_ne_nil p ps)]

/-! ## What attaching does to a condition -/

theorem holds_attach_and (truth : String → Bool) (earlier : List (List String)) (last : List String)
    (predicate : String) : holds truth (attach (earlier ++ [last]) .and predicate) =
      (holds truth earlier || (holds truth [last] && truth predicate)) := by
  simp only [attach, holds, List.dropLast_concat, List.getLastD_concat, List.any_append, List.any_cons,
    List.any_nil, List.all_append, List.all_cons, List.all_nil, Bool.or_false, Bool.and_true]

/-- The condition narrows exactly if each alternative but the last has the predicate already. -/
theorem narrows_iff (earlier : List (List String)) (last : List String) (predicate : String) :
    (∀ truth, holds truth (attach (earlier ++ [last]) .and predicate) =
        (holds truth (earlier ++ [last]) && truth predicate)) ↔
      ∀ alternative ∈ earlier, predicate ∈ alternative := by
  simp only [holds_attach_and]
  constructor
  · intro narrows alternative member
    -- the predicates of the alternative alone are true, and then the new one has to be among them
    have here := narrows fun text => decide (text ∈ alternative)
    have own : holds (fun text => decide (text ∈ alternative)) earlier = true := by
      apply List.any_eq_true.mpr
      refine ⟨alternative, member, List.all_eq_true.mpr fun text inside => ?_⟩
      exact decide_eq_true inside
    rw [own, Bool.true_or] at here
    exact of_decide_eq_true (Bool.and_eq_true_iff.mp here.symm).2
  · intro each truth
    have split : holds truth (earlier ++ [last]) = (holds truth earlier || holds truth [last]) :=
      List.any_append
    cases left : holds truth earlier with
    | false => rw [split, left, Bool.false_or, Bool.false_or]
    | true =>
        obtain ⟨alternative, member, all⟩ := List.any_eq_true.mp left
        have new := List.all_eq_true.mp all predicate (each alternative member)
        rw [split, left, new, Bool.true_or, Bool.true_or, Bool.true_and]

theorem ne_nil_of_readClause {keyword text : String} {before : List (List String)}
    (h : readClause keyword text = some before) : before ≠ [] := by
  unfold readClause at h
  split at h
  · cases h
    exact List.cons_ne_nil _ _
  · obtain ⟨rest, -, inside⟩ := Option.bind_eq_some_iff.mp h
    obtain ⟨ws, -, rfl⟩ := Option.map_eq_some_iff.mp inside
    intro none
    exact List.splitOn_ne_nil _ ws (List.map_eq_nil_iff.mp none)

/-- Predicates that are all attached with AND are one alternative. -/
theorem ofPredicates_of_and {p : Predicate} {ps : List Predicate} (h : ∀ q ∈ ps, q.concat = .and) :
    ofPredicates (p :: ps) = [(p :: ps).map (·.term.render)] := by
  have behind : ∀ (ps : List Predicate) (last : List String), (∀ q ∈ ps, q.concat = .and) →
      ps.foldl (fun before q => attach before q.concat q.term.render) [last] =
        [last ++ ps.map (·.term.render)] := by
    intro ps
    induction ps with
    | nil => exact fun last _ => by rw [List.foldl_nil, List.map_nil, List.append_nil]
    | cons q ps ih =>
        intro last each
        have next := ih (last ++ [q.term.render]) fun r member => each r (List.mem_cons_of_mem _ member)
        rw [List.foldl_cons, each q (List.mem_cons_self ..)]
        rw [List.append_assoc] at next
        exact next
  exact behind ps [p.term.render] h

end Alternatives

/-! ## Predicates that binding makes -/

namespace Term

open Alternatives
open Identifier (IsName)

theorem unjoined_parens {text : String} (h : Whole 0 ('(' :: (text.toList ++ [')']))) :
    Unjoined ("(" ++ text ++ ")") := by
  have cut : ("(" ++ text ++ ")").toList = '(' :: (text.toList ++ [')']) := by
    rw [String.toList_append, String.toList_append]
    rfl
  exact unjoined_of_whole (c := '(') (cut ▸ h) (by rw [cut]; rfl) (by decide)

def Columns (cells : List (String × String)) : Prop :=
  ∀ c ∈ cells, (∃ name, c.1 = Identifier.escape name) ∧ IsName c.2.toList

theorem unjoined_compare (field : String) (op : Operator) {placeholder : String}
    (h : IsName placeholder.toList) : Unjoined (compare (Identifier.escape field) op placeholder).render :=
  ((unjoined_escape field).join (unjoined_operator op)).join (unjoined_reference h)

theorem unjoined_literal (field : String) (op : Operator) {v : Value} {word : String}
    (h : Condition.literal? v = some word) : Unjoined (literal (Identifier.escape field) op word).render := by
  have alone : Unjoined word := by
    unfold Condition.literal? at h
    split at h <;> cases h <;> exact ⟨[_], rfl, by rintro (_ | _) <;> decide⟩
  exact ((unjoined_escape field).join (unjoined_operator op)).join alone

theorem whole_references {placeholders : List String} (h : ∀ p ∈ placeholders, IsName p.toList) :
    Whole 1 (", ".intercalate (placeholders.map reference)).toList := by
  apply whole_intercalate (whole_of_plain rfl)
  intro text member
  obtain ⟨p, hp, rfl⟩ := List.mem_map.mp member
  exact (whole_reference (h p hp)).deeper

theorem unjoined_isIn (field : String) (negated : Bool) {placeholders : List String}
    (h : ∀ p ∈ placeholders, IsName p.toList) :
    Unjoined (isIn (Identifier.escape field) negated placeholders).render := by
  have list := unjoined_parens (whole_references h).parens
  have word : Unjoined (if negated then "NOT IN" else "IN") := by
    cases negated with
    | true => exact ⟨["NOT".toList, "IN".toList], rfl, by rintro (_ | _) <;> decide⟩
    | false => exact ⟨["IN".toList], rfl, by rintro (_ | _) <;> decide⟩
  have cut : (isIn (Identifier.escape field) negated placeholders).render =
      Identifier.escape field ++ " " ++ (if negated then "NOT IN" else "IN") ++ " " ++
        ("(" ++ ", ".intercalate (placeholders.map reference) ++ ")") := by
    apply String.toList_inj.mp
    cases negated <;> simp only [render, String.toList_append, List.append_assoc] <;> rfl
  rw [cut]
  exact ((unjoined_escape field).join word).join list

theorem whole_renderKey {key : List (String × String)} (h : Columns key) : Whole 1 (renderKey key).toList := by
  have terms : Whole 1 (" AND ".intercalate (key.map renderKeyColumn)).toList := by
    apply whole_intercalate (whole_of_plain rfl)
    intro text member
    obtain ⟨⟨column, placeholder⟩, hc, rfl⟩ := List.mem_map.mp member
    obtain ⟨⟨name, same⟩, isName⟩ := h _ hc
    cases same
    simp only [renderKeyColumn, String.toList_append]
    exact ((whole_escape name).deeper.append (whole_of_plain rfl)).append (whole_reference isName).deeper
  simp only [renderKey]
  split
  · exact terms
  · rw [String.toList_append, String.toList_append]
    exact terms.parens.deeper

theorem unjoined_anyKey {keys : List (List (String × String))} (h : ∀ key ∈ keys, Columns key) :
    Unjoined (anyKey keys).render := by
  apply unjoined_parens
  apply Whole.parens
  apply whole_intercalate (whole_of_plain rfl)
  intro text member
  obtain ⟨key, hk, rfl⟩ := List.mem_map.mp member
  exact whole_renderKey (h key hk)

theorem unjoined_raw {fragment : String} (h : Contained fragment) : Unjoined (raw fragment).render :=
  unjoined_parens h.parens

end Term

open Alternatives (Unjoined)

theorem Condition.unjoined_of_bind {c : Condition} {b b' : Bindings} {p : Predicate}
    (h : c.bind b = .ok (p, b')) : p.concat = c.concat ∧ Unjoined p.term.render := by
  obtain ⟨concat, term⟩ := p
  obtain ⟨same, made⟩ := Condition.binds_of_bind h
  refine ⟨same, ?_⟩
  cases made with
  | literal _ word_of => exact Term.unjoined_literal _ _ word_of
  | compare => exact Term.unjoined_compare _ _ (b.isName_bindFresh _ _)
  | isIn => exact Term.unjoined_isIn _ _ fun p hp => Bindings.isName_of_bindAll hp

namespace Query

theorem columns_bindKey (b : Bindings) (key : List (String × Value)) : Term.Columns (bindKey b key).1 := by
  induction key generalizing b with
  | nil => exact fun _ member => nomatch member
  | cons cell key ih =>
      intro c member
      obtain rfl | rest := List.mem_cons.mp member
      · exact ⟨⟨cell.1, rfl⟩, b.isName_bindFresh cell.1 cell.2⟩
      · exact ih _ c rest

theorem columns_of_bindKeys {b : Bindings} {keys : List (List (String × Value))}
    {terms : List (List (String × String))} (h : (bindKeys b keys).1 = .ok terms) :
    ∀ key ∈ terms, Term.Columns key := by
  intro cells member
  obtain ⟨b', key, rfl⟩ := exists_bindKey_of_mem h cells member
  exact columns_bindKey b' key

/-! ## The WHERE clause of a query -/

/-- The alternatives in which the WHERE clause is read. -/
def whereAlternatives (q : Query) : Option (List (List String)) :=
  (q.renderWhere false).toOption.bind (Alternatives.readClause "WHERE")

theorem whereAlternatives_eq (q : Query) : q.whereAlternatives =
    if q.wheres = [] then some [[]] else Alternatives.read (renderPredicates q.wheres) := by
  have rendered : q.renderWhere false = .ok (renderClause "WHERE" q.wheres) :=
    if_neg fun required => Bool.false_ne_true required.1
  rw [whereAlternatives, rendered, ← Alternatives.readClause_renderClause "WHERE"]
  rfl

theorem renderPredicates_concat (first : Predicate) (rest : List Predicate) (p : Predicate) :
    renderPredicates (first :: rest ++ [p]) =
      renderPredicates (first :: rest) ++ " " ++ p.concat.sql ++ " " ++ p.term.render := by
  rw [List.cons_append, renderPredicates, renderPredicates, List.map_append, String.join_append,
    List.map_singleton, String.join_cons, String.join_nil, String.append_empty]
  simp only [String.append_assoc]

/-- A predicate at the end of the clause that AND attaches is read at the end of the last alternative. -/
theorem whereAlternatives_concat {q q' : Query} {p : Predicate} (added : q'.wheres = q.wheres ++ [p])
    (attached : p.concat = .and) (unjoined : Unjoined p.term.render) {before : List (List String)}
    (h : q.whereAlternatives = some before) :
    q'.whereAlternatives = some (Alternatives.attach before .and p.term.render) := by
  rw [whereAlternatives_eq] at h
  rw [whereAlternatives_eq, added, if_neg (List.concat_ne_nil p q.wheres)]
  cases hw : q.wheres with
  | nil =>
      rw [hw, if_pos rfl] at h
      cases h
      rw [List.nil_append, renderPredicates, List.map_nil, String.join_nil, String.append_empty]
      exact Alternatives.read_of_unjoined unjoined
  | cons first rest =>
      rw [hw, if_neg (List.cons_ne_nil first rest)] at h
      rw [renderPredicates_concat, Alternatives.read_attach h unjoined p.concat, attached]

/-- Predicates whose hand-written fragments stay in their parentheses are read as they are. -/
theorem whereAlternatives_of_unjoined {q : Query} (h : ∀ p ∈ q.wheres, Unjoined p.term.render) :
    q.whereAlternatives = some (Alternatives.ofPredicates q.wheres) := by
  rw [whereAlternatives_eq]
  cases hw : q.wheres with
  | nil => rfl
  | cons p ps =>
      rw [if_neg (List.cons_ne_nil p ps)]
      exact Alternatives.read_renderPredicates (hw ▸ h)

/-! ## Steps -/

/-- No word of a predicate joins predicates, unless it is written by hand. -/
def Separate (p : Predicate) : Prop := Unjoined p.term.render ∨ ∃ fragment, p.term = .raw fragment

theorem wheres_addWhere {q q' : Query} {c : Condition} (h : q.addWhere c = .ok q') :
    ∃ p, q'.wheres = q.wheres ++ [p] ∧ p.concat = c.concat ∧ Unjoined p.term.render := by
  obtain ⟨p, b, bound, rfl⟩ := exists_of_addWhere h
  exact ⟨p, rfl, Condition.unjoined_of_bind bound⟩

theorem wheres_addWhereKeys (q : Query) (keys : List (List (String × Value))) :
    (∃ e, (q.addWhereKeys keys).1 = .error e ∧ (q.addWhereKeys keys).2.wheres = q.wheres) ∨
      ∃ p, (q.addWhereKeys keys).2.wheres = q.wheres ++ [p] ∧ p.concat = .and ∧ Unjoined p.term.render := by
  unfold addWhereKeys
  cases made : (bindKeys q.bindings keys).1 with
  | error e => exact .inl ⟨e, by simp only [made], by simp only [made]⟩
  | ok terms =>
      cases terms with
      | nil => exact .inl ⟨_, by simp only [made]; rfl, by simp only [made]⟩
      | cons term terms =>
          simp only [made]
          exact .inr ⟨_, rfl, rfl, Term.unjoined_anyKey (columns_of_bindKeys made)⟩

theorem wheres_perform (q : Query) (step : QueryStep) :
    (q.perform step).2.wheres = q.wheres ∨ (q.perform step).2.wheres = [] ∨
      ∃ p, (q.perform step).2.wheres = q.wheres ++ [p] ∧ Separate p := by
  have attempted : ∀ c, (q.attempt (q.addWhere c)).2.wheres = q.wheres ∨
      ∃ p, (q.attempt (q.addWhere c)).2.wheres = q.wheres ++ [p] ∧ Separate p := by
    intro c
    cases added : q.addWhere c with
    | error e => exact .inl rfl
    | ok q' =>
        obtain ⟨p, same, -, unjoined⟩ := wheres_addWhere added
        exact .inr ⟨p, same, .inl unjoined⟩
  cases step with
  | addWhere c => exact (attempted c).imp_right .inr
  | addIn field values => exact (attempted (.isIn field values)).imp_right .inr
  | addHaving c =>
      left
      simp only [perform, addHaving]
      cases c.bind q.bindings <;> rfl
  | addRawWhere fragment concat => exact .inr (.inr ⟨_, rfl, .inr ⟨fragment, rfl⟩⟩)
  | addWhereKeys keys =>
      obtain ⟨e, -, same⟩ | ⟨p, added, -, unjoined⟩ := q.wheres_addWhereKeys keys
      · exact .inl same
      · exact .inr (.inr ⟨p, added, .inl unjoined⟩)
  | clear => exact .inr (.inl rfl)
  | setSource | addField | setCalcFoundRows | addJoin | addOrder | addGroup | setLimit | addSet | addUpdate
  | bind | setListIndex => exact .inl rfl

theorem Reachable.separate {q : Query} (h : q.Reachable) : ∀ p ∈ q.wheres, Separate p := by
  apply h.invariant
  · exact fun _ member => nomatch member
  · intro q step each
    obtain same | none | ⟨p, added, separate⟩ := q.wheres_perform step
    · exact same ▸ each
    · rw [none]
      exact fun _ member => nomatch member
    · exact added ▸ forall_mem_concat each separate

/-- Hand-written fragments that stay in their parentheses leave a reachable clause readable. -/
theorem Reachable.unjoined {q : Query} (h : q.Reachable)
    (contained : ∀ fragment ∈ rawFragments q.wheres, Alternatives.Contained fragment) :
    ∀ p ∈ q.wheres, Unjoined p.term.render := by
  intro p member
  obtain unjoined | ⟨fragment, raw⟩ := h.separate p member
  · exact unjoined
  · have inside : fragment ∈ rawFragments q.wheres := List.mem_filterMap.mpr ⟨p, member, by simp only [raw]⟩
    rw [raw]
    exact Term.unjoined_raw (contained fragment inside)

end Query

/-- A step that attaches a predicate to the WHERE clause with AND. -/
def QueryStep.AttachesAnd : QueryStep → Prop
  | .addWhere c => c.concat = .and
  | .addIn _ _ | .addWhereKeys _ => True
  | _ => False

namespace Query

theorem wheres_perform_and {q : Query} {step : QueryStep} {answer : Option String}
    (attaches : step.AttachesAnd) (accepted : (q.perform step).1 = .ok answer) :
    ∃ p, (q.perform step).2.wheres = q.wheres ++ [p] ∧ p.concat = .and ∧ Unjoined p.term.render := by
  have attempted : ∀ c : Condition, c.concat = .and → (q.attempt (q.addWhere c)).1 = .ok answer →
      ∃ p, (q.attempt (q.addWhere c)).2.wheres = q.wheres ++ [p] ∧ p.concat = .and ∧
        Unjoined p.term.render := by
    intro c concat made
    cases added : q.addWhere c with
    | error e => rw [added] at made; cases made
    | ok q' => exact concat ▸ wheres_addWhere added
  cases step with
  | addWhere c => exact attempted c attaches accepted
  | addIn field values => exact attempted (.isIn field values) rfl accepted
  | addWhereKeys keys =>
      obtain ⟨e, refused, -⟩ | added := q.wheres_addWhereKeys keys
      · simp only [perform, refused] at accepted
        cases accepted
      · exact added
  | setSource | addField | setCalcFoundRows | addHaving | addRawWhere | addJoin | addOrder | addGroup | setLimit
  | addSet | addUpdate | bind | setListIndex | clear => exact attaches.elim

open Alternatives in
/-- A predicate attached with AND restricts the alternative behind the last OR, in any clause that can be
read, as those are whose hand-written fragments stay in their parentheses. The clause then holds where it
held and the predicate does, if and only if each earlier alternative has the predicate already; there are
none if all predicates are attached with AND. -/
theorem whereAlternatives_perform_and {q : Query} (reachable : q.Reachable) {step : QueryStep}
    {answer : Option String} (attaches : step.AttachesAnd) (accepted : (q.perform step).1 = .ok answer) :
    ∃ p : Predicate, (q.perform step).2.wheres = q.wheres ++ [p] ∧ p.concat = .and ∧
      ((∀ fragment ∈ rawFragments q.wheres, Contained fragment) →
        q.whereAlternatives = some (ofPredicates q.wheres)) ∧
      ((∀ other ∈ q.wheres.tail, other.concat = .and) →
        ofPredicates q.wheres = [q.wheres.map (·.term.render)]) ∧
      ∀ before, q.whereAlternatives = some before → ∃ earlier last, before = earlier ++ [last] ∧
        (q.perform step).2.whereAlternatives = some (earlier ++ [last ++ [p.term.render]]) ∧
        (∀ truth, holds truth (earlier ++ [last ++ [p.term.render]]) =
          (holds truth earlier || (holds truth [last] && truth p.term.render))) ∧
        ((∀ truth, holds truth (earlier ++ [last ++ [p.term.render]]) =
            (holds truth before && truth p.term.render)) ↔
          ∀ alternative ∈ earlier, p.term.render ∈ alternative) := by
  obtain ⟨p, added, attached, unjoined⟩ := wheres_perform_and attaches accepted
  refine ⟨p, added, attached, ?_, ?_, ?_⟩
  · intro contained
    exact whereAlternatives_of_unjoined (reachable.unjoined contained)
  · intro each
    cases hw : q.wheres with
    | nil => rfl
    | cons first rest =>
        apply ofPredicates_of_and
        simpa only [hw, List.tail_cons] using each
  · intro before read
    have after := whereAlternatives_concat added attached unjoined read
    obtain none | ⟨earlier, last, cut⟩ := before.eq_nil_or_concat
    · obtain ⟨text, -, clause⟩ := Option.bind_eq_some_iff.mp read
      exact (ne_nil_of_readClause clause none).elim
    · rw [List.concat_eq_append] at cut
      subst cut
      have grown : attach (earlier ++ [last]) .and p.term.render = earlier ++ [last ++ [p.term.render]] := by
        rw [attach, List.dropLast_concat, List.getLastD_concat]
      rw [grown] at after
      refine ⟨earlier, last, rfl, after, ?_, ?_⟩
      · exact fun truth => grown ▸ holds_attach_and truth earlier last p.term.render
      · exact grown ▸ narrows_iff earlier last p.term.render

/-- Users who are active, or minors in a trial. -/
def activeOrTrial : Query :=
  empty.performAll
    [.setSource "user" none, .addWhere (.eq "status" (.text "active")),
      .addWhere { field := "minor", concat := .or, test := .compare .is (.bool true) },
      .addRawWhere "trial_end > now()" .and]

def notDeleted : QueryStep := .addWhere { field := "deleted_at", test := .compare .is .null }

def activeOrTrialRead : List (List String) :=
  [["\x60status\x60 = :status"], ["\x60minor\x60 IS TRUE", "(trial_end > now())"]]

def notDeletedRead : List (List String) :=
  [["\x60status\x60 = :status"],
    ["\x60minor\x60 IS TRUE", "(trial_end > now())", "\x60deleted_at\x60 IS NULL"]]

theorem render_notDeleted {p : Predicate}
    (added : (activeOrTrial.perform notDeleted).2.wheres = activeOrTrial.wheres ++ [p]) :
    p.term.render = "\x60deleted_at\x60 IS NULL" := by
  have last : (activeOrTrial.perform notDeleted).2.wheres.getLast?.map (·.term.render) =
      some "\x60deleted_at\x60 IS NULL" := by decide +kernel
  rw [added, List.getLast?_concat] at last
  exact Option.some.inj last

/-- Active users stay in the result although they are deleted. -/
theorem whereAlternatives_activeOrTrial :
    activeOrTrial.Reachable ∧ notDeleted.AttachesAnd ∧ (activeOrTrial.perform notDeleted).1 = .ok none ∧
      activeOrTrial.whereAlternatives = some activeOrTrialRead ∧
      (activeOrTrial.perform notDeleted).2.whereAlternatives = some notDeletedRead := by
  have reachable : activeOrTrial.Reachable := ⟨_, rfl⟩
  have attaches : notDeleted.AttachesAnd := rfl
  have accepted : (activeOrTrial.perform notDeleted).1 = .ok none := by decide +kernel
  obtain ⟨p, added, -, readable, -, restricted⟩ := whereAlternatives_perform_and reachable attaches accepted
  have clause : activeOrTrial.whereAlternatives = some activeOrTrialRead := by
    rw [readable (by decide +kernel)]
    decide +kernel
  obtain ⟨earlier, last, cut, after, -, -⟩ := restricted _ clause
  have parts : earlier = activeOrTrialRead.dropLast ∧ last = activeOrTrialRead.getLastD [] := by
    rw [cut, List.dropLast_concat, List.getLastD_concat]
    exact ⟨rfl, rfl⟩
  rw [parts.1, parts.2, render_notDeleted added] at after
  exact ⟨reachable, attaches, accepted, clause, after⟩

open Alternatives in
/-- A predicate attached with AND need not narrow the clause. -/
theorem and_not_narrowing :
    ¬ ∀ (q : Query) (step : QueryStep) (answer : Option String), q.Reachable → step.AttachesAnd →
      (q.perform step).1 = .ok answer →
      ∃ p : Predicate, (q.perform step).2.wheres = q.wheres ++ [p] ∧
        ∀ before after, q.whereAlternatives = some before →
          (q.perform step).2.whereAlternatives = some after →
          ∀ truth, holds truth after = (holds truth before && truth p.term.render) := by
  intro narrows
  have accepted : (activeOrTrial.perform notDeleted).1 = .ok none := by decide +kernel
  obtain ⟨p, added, same⟩ := narrows activeOrTrial notDeleted none ⟨_, rfl⟩ rfl accepted
  have before : activeOrTrial.whereAlternatives = some activeOrTrialRead := by decide +kernel
  have after : (activeOrTrial.perform notDeleted).2.whereAlternatives = some notDeletedRead := by
    decide +kernel
  -- a user who is active and deleted
  have active := same _ _ before after (· == "\x60status\x60 = :status")
  rw [show p.term.render = _ from render_notDeleted added] at active
  exact absurd active (by decide)

end Query

end TableMapper
