import Mathlib.Data.List.Nodup
import TableMapper.Proofs.Cache.Dotted
import TableMapper.Proofs.Value.Equality
import TableMapper.Shop

/-! # Grouping joined rows

Rows are grouped by the texts of their keys: a group stands where the first row of its text does, carries the
entity of that row, and holds the joined sides of all rows of the text in their order. That is grouping by
equal keys exactly as long as two rows have one text if and only if their keys are equal. Main statement:
`Joined.group_by_key_iff`.
-/

namespace TableMapper

/-! ## Grouping by a key -/

section

variable {α β κ : Type} [DecidableEq κ]

/-- The elements that are the first of their key. -/
def firsts (key : α → κ) : List α → List α
  | [] => []
  | e :: es => e :: (firsts key es).filter fun other => key other ≠ key e

/-- The joined sides of the rows of a key. -/
def sides (key : α → κ) (k : κ) (pairs : List (α × Option β)) : List β :=
  (pairs.filter fun p => key p.1 = k).filterMap (·.2)

def grouped (key : α → κ) (pairs : List (α × Option β)) : List (α × List β) :=
  (firsts key (pairs.map (·.1))).map fun e => (e, sides key (key e) pairs)

theorem firsts_sublist (key : α → κ) (es : List α) : (firsts key es).Sublist es := by
  induction es with
  | nil => exact .refl []
  | cons e es ih => exact (List.filter_sublist.trans ih).cons_cons e

theorem mem_map_firsts {key : α → κ} {es : List α} {k : κ} :
    k ∈ (firsts key es).map key ↔ k ∈ es.map key := by
  constructor
  · exact fun member => ((firsts_sublist key es).map key).subset member
  · induction es with
    | nil => exact id
    | cons e es ih =>
        intro member
        rw [firsts, List.map_cons, List.mem_cons]
        by_cases same : k = key e
        · exact .inl same
        · right
          rw [List.map_cons, List.mem_cons] at member
          obtain ⟨first, inside, rfl⟩ := List.mem_map.mp (ih (member.resolve_left same))
          exact List.mem_map_of_mem (List.mem_filter.mpr ⟨inside, decide_eq_true same⟩)

theorem nodup_map_firsts (key : α → κ) (es : List α) : ((firsts key es).map key).Nodup := by
  induction es with
  | nil => exact List.nodup_nil
  | cons e es ih =>
      rw [firsts, List.map_cons, List.nodup_cons]
      constructor
      · intro member
        obtain ⟨other, inside, same⟩ := List.mem_map.mp member
        exact of_decide_eq_true (List.mem_filter.mp inside).2 same
      · exact ih.sublist (List.filter_sublist.map key)

/-- One more element is a first one if its key is new. -/
theorem firsts_concat (key : α → κ) (es : List α) (e : α) : firsts key (es ++ [e]) =
    if key e ∈ es.map key then firsts key es else firsts key es ++ [e] := by
  induction es with
  | nil => rfl
  | cons a es ih =>
      rw [List.cons_append, firsts, ih, firsts, List.map_cons]
      by_cases old : key e ∈ es.map key
      · rw [if_pos old, if_pos (List.mem_cons_of_mem _ old)]
      · rw [if_neg old, List.filter_append]
        by_cases same : key e = key a
        · rw [if_pos (same ▸ List.mem_cons_self ..), List.filter_cons_of_neg (by simpa using same),
            List.filter_nil, List.append_nil]
        · have new : key e ∉ key a :: es.map key := fun member =>
            (List.mem_cons.mp member).elim same old
          rw [if_neg new, List.filter_cons_of_pos (by simpa using same), List.filter_nil, List.cons_append]

theorem sides_concat (key : α → κ) (k : κ) (pairs : List (α × Option β)) (e : α) (j : Option β) :
    sides key k (pairs ++ [(e, j)]) = sides key k pairs ++ if key e = k then j.toList else [] := by
  rw [sides, sides, List.filter_append, List.filterMap_append]
  by_cases same : key e = k
  · rw [if_pos same, List.filter_cons_of_pos (by simpa using same)]
    cases j <;> rfl
  · rw [if_neg same, List.filter_cons_of_neg (by simpa using same)]
    rfl

/-- Without rows of a key there are no joined sides for it. -/
theorem sides_of_new {key : α → κ} {k : κ} {pairs : List (α × Option β)}
    (new : k ∉ (pairs.map (·.1)).map key) : sides key k pairs = [] := by
  have none : pairs.filter (fun p => key p.1 = k) = [] := by
    apply List.filter_eq_nil_iff.mpr
    intro p member same
    apply new
    rw [← of_decide_eq_true same]
    exact List.mem_map_of_mem (List.mem_map_of_mem member)
  rw [sides, none, List.filterMap_nil]

theorem firsts_filter (key : α → κ) (k : κ) (es : List α) :
    (firsts key es).filter (fun e => key e ≠ k) = firsts key (es.filter fun e => key e ≠ k) := by
  induction es with
  | nil => rfl
  | cons e es ih =>
      rw [firsts]
      by_cases same : key e = k
      · subst same
        rw [List.filter_cons_of_neg (by simp), List.filter_cons_of_neg (by simp), List.filter_filter, ← ih]
        exact List.filter_congr fun _ _ => Bool.and_self _
      · have kept : (e :: es).filter (fun e => key e ≠ k) = e :: es.filter fun e => key e ≠ k :=
          List.filter_cons_of_pos (by simpa using same)
        rw [List.filter_cons_of_pos (by simpa using same), kept, firsts, ← ih, List.filter_filter,
          List.filter_filter]
        congr 1
        exact List.filter_congr fun _ _ => Bool.and_comm ..

/-- The group of the first row has all rows of its key, and the other groups are those of the other rows. -/
theorem grouped_cons (key : α → κ) (p : α × Option β) (pairs : List (α × Option β)) :
    grouped key (p :: pairs) =
      (p.1, sides key (key p.1) (p :: pairs)) :: grouped key (pairs.filter fun q => key q.1 ≠ key p.1) := by
  have others : (pairs.filter fun q => key q.1 ≠ key p.1).map (·.1) =
      (pairs.map (·.1)).filter fun e => key e ≠ key p.1 := by
    rw [List.filter_map]
    rfl
  rw [grouped, List.map_cons, firsts, List.map_cons, grouped, others, ← firsts_filter]
  congr 1
  apply List.map_congr_left
  intro e member
  have other : key e ≠ key p.1 := of_decide_eq_true (List.mem_filter.mp member).2
  rw [Prod.mk.injEq, sides, sides, List.filter_cons_of_neg (by simpa using Ne.symm other), List.filter_filter]
  refine ⟨rfl, congrArg _ (List.filter_congr fun q _ => ?_)⟩
  by_cases same : key q.1 = key e
  · simp [same, other]
  · simp [same]

end

/-! ## Classes -/

section

variable {α β : Type} {same same' : α → α → Bool}

/-- Cuts a list into classes: that of the first element has the later ones that are the same, in their order, and
then come the classes of the others. -/
def classes (same : α → α → Bool) : List α → List (List α)
  | [] => []
  | a :: as => (a :: as.filter (same a)) :: classes same (as.filter fun b => !same a b)
termination_by as => as.length
decreasing_by
  rw [List.length_unattach]
  exact Nat.lt_succ_of_le (Nat.le_trans (List.length_filter_le ..) (Nat.le_of_eq List.length_attach))

/-- What holds of a list if it does of the elements outside of the first class holds of every list. -/
theorem induction_on_classes (same : α → α → Bool) {motive : List α → Prop} (nil : motive [])
    (cons : ∀ a as, motive (as.filter fun b => !same a b) → motive (a :: as)) (as : List α) : motive as := by
  induction length : as.length using Nat.strongRecOn generalizing as with
  | ind n ih =>
      cases as with
      | nil => exact nil
      | cons a as =>
          refine cons a as (ih _ ?_ _ rfl)
          rw [← length]
          exact Nat.lt_succ_of_le (List.length_filter_le ..)

theorem filter_eq_filter_iff {p q : α → Bool} {as : List α} :
    as.filter p = as.filter q ↔ ∀ a ∈ as, p a = q a := by
  constructor
  · intro kept a member
    have both : a ∈ as.filter p ↔ a ∈ as.filter q := by rw [kept]
    simpa [List.mem_filter, member, ← Bool.eq_iff_iff] using both
  · exact List.filter_congr

/-- Two relations cut a list into the same classes if and only if they say the same of each two of its
elements. -/
theorem classes_eq_iff (h : Equates same) (h' : Equates same') (as : List α) :
    classes same as = classes same' as ↔ as.Pairwise fun a b => same a b = same' a b := by
  induction as using induction_on_classes same with
  | nil => simp [classes]
  | cons a as ih =>
      rw [classes, classes, List.cons.injEq, List.cons.injEq, List.pairwise_cons, filter_eq_filter_iff]
      simp only [true_and]
      refine and_congr_right fun alike => ?_
      have rest : as.filter (fun b => !same' a b) = as.filter fun b => !same a b :=
        List.filter_congr fun b member => congrArg (!·) (alike b member).symm
      rw [rest, ih, List.pairwise_filter]
      refine ⟨fun apart => apart.imp_of_mem fun {b c} hb hc apart => ?_, fun all => all.imp fun same _ _ => same⟩
      -- of two elements of the class both are related to the first, and an element of the class to none outside
      have beside {r : α → α → Bool} (hr : Equates r) {b c : α} (one : r a b = true) : r b c = r a c :=
        Bool.eq_iff_iff.mpr ⟨hr.trans one, hr.trans (hr.symm one)⟩
      cases inside : same a b with
      | true => rw [beside h inside, beside h' ((alike b hb).symm.trans inside), alike c hc]
      | false =>
          cases inside' : same a c with
          | true =>
              rw [h.comm b c, h'.comm b c, beside h inside', beside h' ((alike c hc).symm.trans inside'), alike b hb]
          | false => exact apart (by simp [inside]) (by simp [inside'])

/-- What a class of rows comes to: the entity of its first row, and the joined sides that its rows have. -/
def summary : List (α × Option β) → Option (α × List β)
  | [] => none
  | p :: pairs => some (p.1, (p :: pairs).filterMap (·.2))

variable {κ : Type} [DecidableEq κ]

/-- Rows of one key. -/
def sameKey (key : α → κ) (p q : α × Option β) : Bool := decide (key p.1 = key q.1)

theorem equates_sameKey (key : α → κ) : Equates (sameKey (β := β) key) :=
  ⟨fun same => equates_beq.symm same, fun first second => equates_beq.trans first second⟩

theorem filter_sameKey (key : α → κ) (p : α × Option β) (pairs : List (α × Option β)) :
    (pairs.filter fun q => !sameKey key p q) = pairs.filter fun q => key q.1 ≠ key p.1 :=
  List.filter_congr fun q _ => by simp [sameKey, eq_comm]

/-- Of rows of one key with one in front, that one is the first. -/
theorem filter_key_cons (key : α → κ) (p : α × Option β) (pairs : List (α × Option β)) :
    (p :: pairs).filter (fun q => key q.1 = key p.1) = p :: pairs.filter (sameKey key p) := by
  rw [List.filter_cons_of_pos (by simp)]
  exact congrArg _ (List.filter_congr fun q _ => by simp [sameKey, eq_comm])

theorem grouped_eq_classes (key : α → κ) (pairs : List (α × Option β)) :
    grouped key pairs = (classes (sameKey key) pairs).filterMap summary := by
  induction pairs using induction_on_classes (sameKey key) with
  | nil => simp [classes, grouped, firsts]
  | cons p pairs ih =>
      have first : summary (p :: pairs.filter (sameKey key p)) = some (p.1, sides key (key p.1) (p :: pairs)) := by
        rw [summary, sides, filter_key_cons]
      rw [grouped_cons, classes, List.filterMap_cons_some first, ← ih, filter_sameKey]

/-- Rows that carry themselves come to groups of whole rows. -/
theorem grouped_map_self (key : α → κ) (pairs : List (α × Option β)) :
    (grouped key (pairs.map fun p => (p.1, some p))).map (·.2) = classes (sameKey key) pairs := by
  induction pairs using induction_on_classes (sameKey key) with
  | nil => simp [classes, grouped, firsts]
  | cons p pairs ih =>
      have others : (pairs.map fun p => (p.1, some p)).filter (fun q => key q.1 ≠ key p.1) =
          (pairs.filter fun q => !sameKey key p q).map fun p => (p.1, some p) := by
        rw [filter_sameKey, List.filter_map]
        rfl
      rw [List.map_cons, grouped_cons, List.map_cons, others, ih, classes]
      congr 1
      change sides key (key p.1) ((p :: pairs).map fun p => (p.1, some p)) = _
      rw [sides, List.filter_map, List.filterMap_map]
      exact (congrArg _ (filter_key_cons key p pairs)).trans List.filterMap_some

end

/-! ## The loop over rows -/

def Entity.keyTexts {α : Type} [Entity α] (e : α) : List String := (keyValues e).map fun (_, v) => v.keyText

/-- Whether two entities have equal keys: the same columns, with equal values. -/
def Entity.equalKeys {α : Type} [Entity α] (e e' : α) : Bool :=
  (keyValues e).isEqv (keyValues e') fun cell cell' => cell.1 == cell'.1 && cell.2.equals cell'.2

theorem Entity.equates_equalKeys {α : Type} [Entity α] : Equates (equalKeys (α := α)) := by
  have cells : Equates fun cell cell' : String × Value => cell.1 == cell'.1 && cell.2.equals cell'.2 := by
    constructor
    · intro a b same
      simp only [Bool.and_eq_true, beq_iff_eq] at same ⊢
      exact ⟨same.1.symm, Value.equals_symm same.2⟩
    · intro a b c first second
      simp only [Bool.and_eq_true, beq_iff_eq] at first second ⊢
      exact ⟨first.1.trans second.1, Value.equals_trans first.2 second.2⟩
  exact ⟨fun same => cells.isEqv.symm same, fun first second => cells.isEqv.trans first second⟩

namespace Joined

/-- Of groups with different keys, one is added to or one is opened. -/
theorem addToGroup_map {α β : Type} {key : α → String} {es : List α} (distinct : (es.map key).Nodup)
    (joined : α → List β) (e : α) (j : Option β) :
    addToGroup (key e) e j (es.map fun a => ⟨some (key a), a, joined a⟩) =
      if key e ∈ es.map key then
        es.map fun a => ⟨some (key a), a, joined a ++ if key e = key a then j.toList else []⟩
      else es.map (fun a => ⟨some (key a), a, joined a⟩) ++ [⟨some (key e), e, j.toList⟩] := by
  induction es with
  | nil => rfl
  | cons a es ih =>
      rw [List.map_cons, List.nodup_cons] at distinct
      rw [List.map_cons, addToGroup]
      by_cases same : key e = key a
      · have others : ∀ b ∈ es, key e ≠ key b := fun b member equal =>
          distinct.1 (same.symm.trans equal ▸ List.mem_map_of_mem member)
        have rest : es.map (fun b => (⟨some (key b), b, joined b ++ if key e = key b then j.toList else []⟩ :
            Group α β)) = es.map fun b => ⟨some (key b), b, joined b⟩ := by
          apply List.map_congr_left
          intro b member
          rw [if_neg (others b member), List.append_nil]
        rw [if_pos (congrArg some same.symm), List.map_cons, if_pos (same ▸ List.mem_cons_self ..),
          List.map_cons, rest, if_pos same]
      · have differ : ¬ some (key a) = some (key e) := fun equal => same (Option.some.inj equal).symm
        rw [if_neg differ, ih distinct.2, List.map_cons]
        by_cases old : key e ∈ es.map key
        · rw [if_pos old, if_pos (List.mem_cons_of_mem _ old), List.map_cons, if_neg same, List.append_nil]
        · have new : key e ∉ key a :: es.map key := fun member => (List.mem_cons.mp member).elim same old
          rw [if_neg old, if_neg new, List.cons_append]

variable {α β : Type} [Entity α]

def groupsOf (pairs : List (α × Option β)) : List (Group α β) :=
  (firsts Entity.keyText (pairs.map (·.1))).map fun e =>
    ⟨some (Entity.keyText e), e, sides Entity.keyText (Entity.keyText e) pairs⟩

theorem addRow_groupsOf (keyed : Entity.primaryKey α ≠ []) (pairs : List (α × Option β)) (e : α)
    (j : Option β) : addRow e j (groupsOf pairs) = groupsOf (pairs ++ [(e, j)]) := by
  -- a row of a new text opens a group behind the others, one of an old text adds to a group in its place
  have some : (Entity.primaryKey α).isEmpty = false := List.isEmpty_eq_false_iff.mpr keyed
  rw [addRow, some, if_neg Bool.false_ne_true, groupsOf,
    addToGroup_map (nodup_map_firsts Entity.keyText (pairs.map (·.1))), groupsOf, List.map_append,
    List.map_singleton, firsts_concat]
  simp only [sides_concat, mem_map_firsts]
  split
  · rfl
  · next new =>
    rw [List.map_append, List.map_singleton, sides_of_new new, List.nil_append, if_pos rfl]
    congr 1
    apply List.map_congr_left
    intro a member
    have differ : Entity.keyText e ≠ Entity.keyText a := by
      intro same
      apply new
      rw [same]
      exact mem_map_firsts.mp (List.mem_map_of_mem member)
    rw [if_neg differ, List.append_nil]

/-- Adds pairs to groups in turn. -/
def addRows (pairs : List (α × Option β)) (groups : List (Group α β)) : List (Group α β) :=
  pairs.foldl (fun groups p => addRow p.1 p.2 groups) groups

theorem addRows_groupsOf (keyed : Entity.primaryKey α ≠ []) (before pairs : List (α × Option β)) :
    addRows pairs (groupsOf before) = groupsOf (before ++ pairs) := by
  induction pairs generalizing before with
  | nil =>
      rw [List.append_nil]
      rfl
  | cons p pairs ih =>
      change addRows pairs (addRow p.1 p.2 (groupsOf before)) = _
      rw [addRow_groupsOf keyed, ih, List.append_assoc, List.singleton_append]

/-- Of a table with a key the groups are those of the key's text. -/
theorem map_addRows (keyed : Entity.primaryKey α ≠ []) (pairs : List (α × Option β)) :
    (addRows pairs []).map (fun g => (g.entity, g.joined)) = grouped Entity.keyText pairs := by
  have all := addRows_groupsOf keyed [] pairs
  change addRows pairs [] = groupsOf pairs at all
  rw [all, groupsOf, List.map_map]
  rfl

/-- The rows of each group: the groups that come of the rows when each carries itself as its joined side. -/
def rowsOf (pairs : List (α × Option β)) : List (List (α × Option β)) :=
  (addRows (pairs.map fun p => (p.1, some p)) []).map (·.joined)

variable [Decodable β]

/-- Reading rows into groups is reading them as pairs, which are then added. A row that cannot be read ends
both at once. -/
theorem groupAfter_eq (label : String) (rows : List Row) (groups : List (Group α β)) :
    groupAfter label groups rows = (split α β label rows).map fun pairs => addRows pairs groups := by
  induction rows generalizing groups with
  | nil => rfl
  | cons r rs ih =>
      rw [groupAfter, split]
      cases (Decodable.ofRow r : Except Error α) with
      | error => rfl
      | ok e =>
          cases side β label r with
          | error => rfl
          | ok j =>
              change groupAfter label (addRow e j groups) rs = _
              rw [ih]
              cases split α β label rs <;> rfl

theorem group_eq (label : String) (rows : List Row) : group α β label rows =
    (split α β label rows).map fun pairs => (addRows pairs []).map fun g => (g.entity, g.joined) := by
  rw [group, groupAfter_eq]
  cases split α β label rows <;> rfl

theorem group_eq_grouped (keyed : Entity.primaryKey α ≠ []) {label : String} {rows : List Row}
    {pairs : List (α × Option β)} (decoded : split α β label rows = .ok pairs) :
    group α β label rows = .ok (grouped Entity.keyText pairs) := by
  rw [group_eq, decoded]
  exact congrArg Except.ok (map_addRows keyed pairs)

omit [Decodable β] in
theorem rowsOf_eq_classes (keyed : Entity.primaryKey α ≠ []) (pairs : List (α × Option β)) :
    rowsOf pairs = classes (sameKey Entity.keyText) pairs := by
  rw [← grouped_map_self, ← map_addRows keyed, List.map_map]
  rfl

/-- Rows that decode come into groups by the texts of their keys, and a group is what its rows come to. They come
into groups by equal keys if and only if each two of them have one text exactly if they have equal keys. Two keys
have one text if and only if their values are alike as text, or a dot between two texts of one stands inside of a
text of the other. -/
theorem group_by_key_iff (keyed : Entity.primaryKey α ≠ []) {label : String} {rows : List Row}
    {pairs : List (α × Option β)} (decoded : split α β label rows = .ok pairs) :
    group α β label rows = .ok ((rowsOf pairs).filterMap summary) ∧
      rowsOf pairs = classes (sameKey Entity.keyText) pairs ∧
      (rowsOf pairs = classes (fun p q => Entity.equalKeys p.1 q.1) pairs ↔
        pairs.Pairwise fun p q => (Entity.keyText p.1 = Entity.keyText q.1 ↔ Entity.equalKeys p.1 q.1 = true)) ∧
      ∀ e e' : α, Entity.keyValues e ≠ [] → Entity.keyValues e' ≠ [] →
        (Entity.keyText e = Entity.keyText e' ↔ Entity.keyTexts e = Entity.keyTexts e' ∨
          CutsInto (Entity.keyTexts e) (Entity.keyTexts e') ∨
            CutsInto (Entity.keyTexts e') (Entity.keyTexts e)) := by
  have rowsOf_eq := rowsOf_eq_classes keyed pairs
  refine ⟨?_, rowsOf_eq, ?_, ?_⟩
  · rw [group_eq_grouped keyed decoded, grouped_eq_classes, rowsOf_eq]
  · have equal : Equates fun p q : α × Option β => Entity.equalKeys p.1 q.1 :=
      ⟨fun same => Entity.equates_equalKeys.symm same, fun first second => Entity.equates_equalKeys.trans first second⟩
    rw [rowsOf_eq, classes_eq_iff (equates_sameKey Entity.keyText) equal]
    exact List.Pairwise.iff fun p q => by rw [Bool.eq_iff_iff, sameKey, decide_eq_true_iff]
  · intro e e' some some'
    have filled : Entity.keyTexts e ≠ [] := fun none => some (List.map_eq_nil_iff.mp none)
    have filled' : Entity.keyTexts e' ≠ [] := fun none => some' (List.map_eq_nil_iff.mp none)
    exact dotted_eq_iff filled filled'

end Joined

/-! ## Groups of roles and of files -/

def editor : Record Shop.userRole := ⟨[.integer (.one .uint32), .text "editor", .null], rfl, rfl, rfl, trivial⟩

/-- The same role, read from a row that dates it. -/
def datedEditor : Record Shop.userRole :=
  ⟨[.integer (.one .uint32), .text "editor", .date .epoch], rfl, rfl, rfl, trivial⟩

def otherEditor : Record Shop.userRole :=
  ⟨[.integer (.zero .uint32), .text "editor", .null], rfl, rfl, rfl, trivial⟩

def upTag : Record Shop.tagLink := ⟨[.integer (.zero .int64), .integer (.one .int64)], rfl, rfl, trivial⟩

def downTag : Record Shop.tagLink := ⟨[.integer (.one .int64), .integer (.zero .int64)], rfl, rfl, trivial⟩

/-- The cells of an entity, and those of a joined one or none. -/
def joinedRow {t u : RecordType} (label : String) (e : Record t) (j : Option (Record u)) : Row :=
  ⟨e.cells ++ match j with
    | some j => j.cells.map fun (column, v) => (EntityJoin.start label ++ column, v)
    | none => u.columns.map fun column => (EntityJoin.start label ++ column, .null)⟩

def editorPairs : List (Record Shop.userRole × Option (Record Shop.tagLink)) :=
  [(editor, some downTag), (otherEditor, none), (datedEditor, some upTag)]

/-- The first row of a role says how it is shown, and later ones add their tags. -/
theorem group_by_key_editors :
    Entity.primaryKey (Record Shop.userRole) ≠ [] ∧
      Joined.split (Record Shop.userRole) (Record Shop.tagLink) "tag"
        (editorPairs.map fun (e, j) => joinedRow "tag" e j) = .ok editorPairs ∧
      Joined.group (Record Shop.userRole) (Record Shop.tagLink) "tag"
        (editorPairs.map fun (e, j) => joinedRow "tag" e j) =
          .ok [(editor, [downTag, upTag]), (otherEditor, [])] ∧
      Joined.rowsOf editorPairs = classes (fun p q => Entity.equalKeys p.1 q.1) editorPairs := by
  have keyed : Entity.primaryKey (Record Shop.userRole) ≠ [] := by decide +kernel
  have decoded : Joined.split (Record Shop.userRole) (Record Shop.tagLink) "tag"
      (editorPairs.map fun (e, j) => joinedRow "tag" e j) = .ok editorPairs := rfl
  obtain ⟨groups, -, by_key, -⟩ := Joined.group_by_key_iff keyed decoded
  exact ⟨keyed, decoded, groups.trans rfl, by_key.mpr (by decide +kernel)⟩

/-- Files under the hash of their content. -/
def hashedFile : RecordType :=
  { table := "file"
    fields :=
      [{ column := "hash", name := "hash", type := ⟨.bytes, false⟩, primary := true },
       { column := "name", name := "name", type := ⟨.text, false⟩ }]
    cacheStart := "file" }

def fileOf (hash : UInt8) (name : String) : Record hashedFile :=
  ⟨[.bytes ⟨#[hash]⟩, .text name], rfl, rfl, trivial⟩

def filePairs : List (Record hashedFile × Option (Record hashedFile)) :=
  [(fileOf 0xf0 "a", some (fileOf 0xf0 "b")), (fileOf 0xf1 "c", some (fileOf 0xf1 "d"))]

/-- Rates under the number that they are. -/
def rate : RecordType :=
  { table := "rate"
    fields := [{ column := "per_cent", name := "per_cent", type := ⟨.decimal, false⟩, primary := true }]
    cacheStart := "rate" }

def rateOf (d : Number.Decimal) : Record rate := ⟨[.decimal d], rfl, trivial⟩

/-- The rates 0.125 and 0.1250, with earlier ones. -/
def ratePairs : List (Record rate × Option (Record rate)) :=
  [(rateOf ⟨false, 125, 3, by decide, by decide, by decide⟩, some (rateOf .zero)),
    (rateOf ⟨false, 1250, 4, by decide, by decide, by decide⟩, some (rateOf .zero))]

/-- Files with different keys come to one group, which then has the copies of both. Rates with equal keys that are
written with three and with four digits come to two groups. -/
theorem group_not_by_key :
    (Joined.split (Record hashedFile) (Record hashedFile) "copy"
        (filePairs.map fun (e, j) => joinedRow "copy" e j) = .ok filePairs ∧
      Entity.equalKeys (fileOf 0xf0 "a") (fileOf 0xf1 "c") = false ∧
      Joined.group (Record hashedFile) (Record hashedFile) "copy"
        (filePairs.map fun (e, j) => joinedRow "copy" e j) =
          .ok [(fileOf 0xf0 "a", [fileOf 0xf0 "b", fileOf 0xf1 "d"])] ∧
      Joined.rowsOf filePairs ≠ classes (fun p q => Entity.equalKeys p.1 q.1) filePairs) ∧
    Joined.split (Record rate) (Record rate) "old"
        (ratePairs.map fun (e, j) => joinedRow "old" e j) = .ok ratePairs ∧
      (ratePairs.Pairwise fun p q => Entity.equalKeys p.1 q.1 = true) ∧
      Joined.group (Record rate) (Record rate) "old" (ratePairs.map fun (e, j) => joinedRow "old" e j) =
        .ok (ratePairs.map fun (e, j) => (e, j.toList)) ∧
      Joined.rowsOf ratePairs ≠ classes (fun p q => Entity.equalKeys p.1 q.1) ratePairs := by
  have files : Entity.equalKeys (fileOf 0xf0 "a") (fileOf 0xf1 "c") = false := by decide +kernel
  have rates : ratePairs.Pairwise fun p q => Entity.equalKeys p.1 q.1 = true := by decide +kernel
  refine ⟨⟨rfl, files, rfl, fun same => ?_⟩, rfl, rates, rfl, fun same => ?_⟩
  · have one : (Joined.rowsOf filePairs).length = 1 := rfl
    rw [same] at one
    simp [filePairs, classes, files] at one
  · have two : (Joined.rowsOf ratePairs).length = 2 := rfl
    have equal := List.rel_of_pairwise_cons rates (List.mem_singleton_self _)
    rw [same] at two
    simp [ratePairs, classes, equal] at two

end TableMapper
