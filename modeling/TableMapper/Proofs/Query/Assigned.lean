import TableMapper.Proofs.Mapper.Writes
import TableMapper.Proofs.Query.Supplied

/-! # Assignments of an insertion

An insertion assigns values in two parts, to the new row and to a row that exists already. Both parts bind their
values under fields, the second under fields that begin with `update.`, and assigning a field again changes the
value that it shares. So a part says what was assigned last, unless the row has a field that begins in that way
itself. Main statement: `insert_assigned`.
-/

namespace TableMapper

open Identifier (written)
open Bindings (Holds)

/-- The parts of an insertion: the new row, and the changes to a row that exists already. -/
inductive InsertPart where
  | row | changes
  deriving DecidableEq

/-- The field that a part binds values under. -/
def InsertPart.key : InsertPart → String → String
  | row, field => field
  | changes, field => Identifier.qualify (some "update") field

/-- A value that is assigned to a field. -/
structure Assigned where
  part : InsertPart
  field : String
  value : Value
  deriving DecidableEq

namespace Assigned

def step : Assigned → QueryStep
  | ⟨.row, field, v⟩ => .addSet field v
  | ⟨.changes, field, v⟩ => .addUpdate field v

def key (a : Assigned) : String := a.part.key a.field

/-! ## What is asked for -/

/-- The fields of a part, once each in the order in which they were first assigned. -/
def fields (part : InsertPart) (as : List Assigned) : List String :=
  ((as.filter (·.part = part)).map (·.field)).eraseDups

/-- The value of the last one of the assignments. -/
def last? (p : Assigned → Bool) (as : List Assigned) : Option Value := (as.reverse.find? p).map (·.value)

/-- Whether an assignment is one of a part to a field. -/
def isTo (part : InsertPart) (field : String) (a : Assigned) : Bool := a.part = part ∧ a.field = field

/-- Whether an assignment binds its value under a field. -/
def isUnder (key : String) (a : Assigned) : Bool := a.key = key

/-- The fields of a part with the values that were last assigned to them. -/
def asked (part : InsertPart) (as : List Assigned) : List (String × Option Value) :=
  (fields part as).map fun field => (field, last? (isTo part field) as)

/-- The fields of a part with the values that were last bound for them, by either part. -/
def bound (part : InsertPart) (as : List Assigned) : List (String × Option Value) :=
  (fields part as).map fun field => (field, last? (isUnder (part.key field)) as)

/-- Where the row has a field that the changes bind values under, the same value was assigned last by both. -/
def Agree (as : List Assigned) : Prop :=
  ∀ field v w, last? (isTo .row (InsertPart.changes.key field)) as = some v →
    last? (isTo .changes field) as = some w → v = w

/-! ## The last assignment -/

theorem last?_concat (p : Assigned → Bool) (as : List Assigned) (a : Assigned) :
    last? p (as ++ [a]) = if p a = true then some a.value else last? p as := by
  simp only [last?, List.reverse_append, List.reverse_singleton, List.singleton_append, List.find?_cons]
  cases p a <;> rfl

theorem last?_eq_none_iff {p : Assigned → Bool} {as : List Assigned} : last? p as = none ↔ ∀ a ∈ as, p a = false := by
  simp [last?]

/-- The last of the assignments of two kinds is the last of one kind. -/
theorem last?_or (p r : Assigned → Bool) (as : List Assigned) :
    (last? (fun a => p a || r a) as = last? p as ∧ (last? p as = none → last? r as = none)) ∨
      (last? (fun a => p a || r a) as = last? r as ∧ (last? r as = none → last? p as = none)) := by
  induction as using List.reverseRecOn with
  | nil => exact .inl ⟨rfl, id⟩
  | append_singleton as a ih =>
      simp only [last?_concat]
      cases p a with
      | true => exact .inl (by simp)
      | false =>
          cases r a with
          | true => exact .inr (by simp)
          | false => simpa using ih

theorem fields_concat_of_ne {part : InsertPart} {a : Assigned} (other : a.part ≠ part) (as : List Assigned) :
    fields part (as ++ [a]) = fields part as := by
  simp [fields, List.filter_append, other]

theorem fields_concat (as : List Assigned) (a : Assigned) :
    fields a.part (as ++ [a]) =
      if a.field ∈ fields a.part as then fields a.part as else fields a.part as ++ [a.field] := by
  have one : [a].filter (·.part = a.part) = [a] := by simp
  simp only [fields, List.filter_append, one, List.map_append, List.map_singleton, List.eraseDups_append,
    List.mem_eraseDups]
  split
  · next old => simp [List.removeAll, old]
  · next new =>
    have one : [a.field].eraseDups = [a.field] := rfl
    simp [List.removeAll, new, one]

theorem field_mem_fields {a : Assigned} {as : List Assigned} (member : a ∈ as) : a.field ∈ fields a.part as := by
  simp only [fields, List.mem_eraseDups]
  exact List.mem_map_of_mem (List.mem_filter.mpr ⟨member, by simp⟩)

theorem isTo_iff {part : InsertPart} {field : String} {a : Assigned} :
    isTo part field a = true ↔ a.part = part ∧ a.field = field := by
  simp [isTo]

theorem isUnder_iff {key : String} {a : Assigned} : isUnder key a = true ↔ a.key = key := by
  simp [isUnder]

theorem mem_fields_iff {part : InsertPart} {field : String} {as : List Assigned} :
    field ∈ fields part as ↔ last? (isTo part field) as ≠ none := by
  simp only [fields, List.mem_eraseDups, List.mem_map, List.mem_filter, decide_eq_true_eq, ne_eq, last?_eq_none_iff,
    isTo, decide_eq_false_iff_not, not_forall, not_not]
  constructor
  · rintro ⟨a, ⟨member, part⟩, field⟩
    exact ⟨a, member, part, field⟩
  · rintro ⟨a, member, part, field⟩
    exact ⟨a, ⟨member, part⟩, field⟩

theorem key_changes_injective : Function.Injective InsertPart.changes.key := Write.qualify_update_injective

/-- A field of the changes is bound under the name of one that the row may have. -/
theorem isUnder_changes (field : String) :
    isUnder (InsertPart.changes.key field) =
      fun a => isTo .row (InsertPart.changes.key field) a || isTo .changes field a := by
  funext a
  obtain ⟨part, other, v⟩ := a
  rw [Bool.eq_iff_iff, Bool.or_eq_true, isUnder_iff, isTo_iff, isTo_iff]
  cases part with
  | row => simp [key, InsertPart.key]
  | changes => simp [key, key_changes_injective.eq_iff]

theorem isUnder_row {field : String} (apart : ∀ other, field ≠ InsertPart.changes.key other) :
    isUnder (InsertPart.row.key field) = isTo .row field := by
  funext a
  obtain ⟨part, other, v⟩ := a
  rw [Bool.eq_iff_iff, isUnder_iff, isTo_iff]
  cases part with
  | row => simp [key, InsertPart.key]
  | changes =>
      have differ : InsertPart.changes.key other ≠ InsertPart.row.key field := (apart other).symm
      simp [key, differ]

/-- Parts that agree each find the value that they assigned last. -/
theorem Agree.last?_eq {as : List Assigned} (agree : Agree as) (field : String) :
    (last? (isTo .row (InsertPart.changes.key field)) as ≠ none →
        last? (isUnder (InsertPart.changes.key field)) as = last? (isTo .row (InsertPart.changes.key field)) as) ∧
      (last? (isTo .changes field) as ≠ none →
        last? (isUnder (InsertPart.changes.key field)) as = last? (isTo .changes field) as) := by
  have same := agree field
  rw [isUnder_changes]
  -- either part may have been the last to assign, and the other has the same value if it assigned at all
  obtain ⟨last, never⟩ | ⟨last, never⟩ :=
    last?_or (isTo .row (InsertPart.changes.key field)) (isTo .changes field) as
  · rw [last]
    refine ⟨fun _ => rfl, fun second => ?_⟩
    obtain ⟨w, second⟩ := Option.ne_none_iff_exists'.mp second
    obtain ⟨v, first⟩ := Option.ne_none_iff_exists'.mp fun none => absurd (never none) (by simp [second])
    rw [first, second, same v w first second]
  · rw [last]
    refine ⟨fun first => ?_, fun _ => rfl⟩
    obtain ⟨v, first⟩ := Option.ne_none_iff_exists'.mp first
    obtain ⟨w, second⟩ := Option.ne_none_iff_exists'.mp fun none => absurd (never none) (by simp [first])
    rw [first, second, same v w first second]

/-- What is bound is what was asked for exactly when the parts agree. -/
theorem bound_eq_asked_iff {as : List Assigned} :
    (bound .row as = asked .row as ∧ bound .changes as = asked .changes as) ↔ Agree as := by
  simp only [bound, asked, List.map_inj_left, Prod.mk.injEq, true_and]
  constructor
  · rintro ⟨row, changes⟩ field v w first second
    have left := row _ (mem_fields_iff.mpr (first ▸ Option.some_ne_none v))
    have right := changes _ (mem_fields_iff.mpr (second ▸ Option.some_ne_none w))
    rw [first] at left
    rw [second] at right
    exact Option.some.inj (left.symm.trans right)
  · intro agree
    refine ⟨fun field member => ?_, fun field member => (agree.last?_eq field).2 (mem_fields_iff.mp member)⟩
    by_cases apart : ∀ other, field ≠ InsertPart.changes.key other
    · rw [isUnder_row apart]
    · simp only [not_forall, not_not] at apart
      obtain ⟨other, rfl⟩ := apart
      exact (agree.last?_eq other).1 (mem_fields_iff.mp member)

end Assigned

/-! ## What fields share -/

namespace Bindings

/-- The value under the placeholder that a field shares. -/
def sharedValue (b : Bindings) (field : String) : Option Value := (b.shared.lookup field).bind b.get?

theorem Consistent.get?_of_mem {b : Bindings} (h : b.Consistent) {e : Binding} (member : e ∈ b.entries) :
    b.get? e.placeholder = some e.value := by
  obtain ⟨front, back, whole⟩ := List.append_of_mem member
  have distinct := h.distinct
  rw [placeholders, whole, List.map_append, List.map_cons] at distinct
  have found : b.entries.find? (·.placeholder == e.placeholder) = some e := by
    apply List.find?_eq_some_iff_append.mpr
    refine ⟨beq_self_eq_true _, front, back, whole, fun d before => ?_⟩
    have apart := (List.nodup_append.mp distinct).2.2 _ (List.mem_map_of_mem before) _ (List.mem_cons_self ..)
    simpa using apart
  rw [get?, found, Option.map_some]

/-- Fields that share a placeholder are one field. -/
theorem Consistent.eq_of_lookup {b : Bindings} (h : b.Consistent) {field other p : String}
    (found : b.shared.lookup field = some p) (found' : b.shared.lookup other = some p) : field = other := by
  obtain ⟨front, old, back, whole⟩ := h.exists_entry found
  obtain ⟨front', old', back', whole'⟩ := h.exists_entry found'
  have member : ⟨p, field, old⟩ ∈ b.entries := by simp [whole]
  have member' : ⟨p, other, old'⟩ ∈ b.entries := by simp [whole']
  exact congrArg Binding.field (List.inj_on_of_nodup_map h.distinct member member' rfl)

/-- The value that is bound for a field is what the field shares then. -/
theorem Consistent.sharedValue_bindShared_self {b : Bindings} (h : b.Consistent) (field : String) (v : Value) :
    (b.bindShared field v).2.sharedValue field = some v := by
  have member : ⟨(b.bindShared field v).1, field, v⟩ ∈ (b.bindShared field v).2.entries := by
    cases found : b.shared.lookup field with
    | some p =>
        obtain ⟨same, front, old, back, -, changed⟩ := h.entries_bind_of_shared found v
        rw [show (b.bindShared field v).1 = p from same, show (b.bindShared field v).2.entries = _ from changed]
        exact List.mem_append_right _ (List.mem_cons_self ..)
    | none =>
        have new : false = true ∨ b.shared.lookup field = none := .inr found
        rw [show (b.bindShared field v).2.entries = _ from entries_bind_of_new new v]
        exact List.mem_append_right _ (List.mem_cons_self ..)
  rw [sharedValue, lookup_bindShared, Option.bind_some]
  exact (h.bindShared field v).get?_of_mem member

/-- What another field shares stays. -/
theorem Consistent.sharedValue_bindShared_of_ne {b : Bindings} (h : b.Consistent) {field other : String}
    (differ : other ≠ field) (v : Value) : (b.bindShared field v).2.sharedValue other = b.sharedValue other := by
  unfold sharedValue Bindings.bindShared
  cases found : b.shared.lookup field with
  | some p =>
      change (b.shared.lookup other).bind (b.setValue p v).get? = _
      cases found' : b.shared.lookup other with
      | none => rfl
      | some q =>
          have apart : p ≠ q := fun same => differ (h.eq_of_lookup found' (same ▸ found))
          exact get?_setValue_of_ne apart v
  | none =>
      have unshared : (b.bindFresh field v).2.shared = b.shared := rfl
      simp only [List.lookup_cons, beq_false_of_ne differ, unshared]
      cases found' : b.shared.lookup other with
      | none => rfl
      | some q =>
          obtain ⟨front, old, back, whole⟩ := h.exists_entry found'
          have member : q ∈ b.placeholders := by simp [placeholders, whole]
          exact get?_append_of_mem member ⟨_, field, v⟩

end Bindings

/-! ## Where assignments lead -/

namespace Query

open Assigned (last? isUnder bound)

/-- What a query assigns in a part. -/
def assignments (q : Query) : InsertPart → Assignments
  | .row => q.sets
  | .changes => q.updates

theorem fst_assign (xs : Assignments) (field placeholder : String) :
    (xs.assign field placeholder).map (·.1) =
      if field ∈ xs.map (·.1) then xs.map (·.1) else xs.map (·.1) ++ [field] := by
  induction xs with
  | nil => rfl
  | cons x xs ih =>
      obtain ⟨other, old⟩ := x
      unfold Assignments.assign
      split
      · next same => simp [same]
      · next differ =>
        rw [List.map_cons, ih]
        simp only [List.map_cons, List.mem_cons, Ne.symm differ, false_or]
        split <;> rfl

/-- Where assignments have led a query about a table: each part has its fields, each with the placeholder that it
shares, and under what a field shares stands the last value bound for it. -/
structure Follows (source : Option (String × Option String)) (as : List Assigned) (q : Query) : Prop where
  source : q.source = source
  names : ∀ part, (q.assignments part).map (·.1) = Assigned.fields part as
  shared : ∀ part, ∀ s ∈ q.assignments part, q.bindings.shared.lookup (part.key s.1) = some s.2
  values : ∀ key, q.bindings.sharedValue key = last? (isUnder key) as

theorem perform_step_bindings (q : Query) (a : Assigned) :
    (q.perform a.step).2.bindings = (q.bindings.bindShared a.key a.value).2 := by
  obtain ⟨part, field, v⟩ := a
  cases part <;> rfl

theorem perform_step_assignments (q : Query) (a : Assigned) (part : InsertPart) :
    (q.perform a.step).2.assignments part =
      if a.part = part then (q.assignments part).assign a.field (q.bindings.bindShared a.key a.value).1
      else q.assignments part := by
  obtain ⟨own, field, v⟩ := a
  cases own <;> cases part <;> rfl

theorem Follows.perform {source : Option (String × Option String)} {as : List Assigned} {q : Query}
    (h : q.Follows source as) (consistent : q.bindings.Consistent) (a : Assigned) :
    (q.perform a.step).2.Follows source (as ++ [a]) := by
  refine ⟨?_, fun part => ?_, fun part s member => ?_, fun key => ?_⟩
  · rw [← h.source]
    obtain ⟨part, field, v⟩ := a
    cases part <;> rfl
  · rw [perform_step_assignments]
    split
    · next same =>
      subst same
      rw [fst_assign, h.names, Assigned.fields_concat]
    · next other => rw [h.names, Assigned.fields_concat_of_ne other]
  · rw [perform_step_bindings]
    -- what was shared before goes on being shared
    have stays (s : String × String) (old : s ∈ q.assignments part) :
        (q.bindings.bindShared a.key a.value).2.shared.lookup (part.key s.1) = some s.2 := by
      have going : BindingStep.bind a.key a.value false ≠ .clear := BindingStep.noConfusion
      exact Bindings.lookup_perform (h.shared part s old) going
    rw [perform_step_assignments] at member
    split at member
    · next same =>
      obtain rfl | old := mem_assign member
      · exact same ▸ Bindings.lookup_bindShared q.bindings a.key a.value
      · exact stays s old
    · exact stays s member
  · rw [perform_step_bindings, Assigned.last?_concat]
    by_cases same : a.key = key
    · rw [if_pos (Assigned.isUnder_iff.mpr same), ← same]
      exact consistent.sharedValue_bindShared_self a.key a.value
    · rw [if_neg fun under => same (Assigned.isUnder_iff.mp under), ← h.values]
      exact consistent.sharedValue_bindShared_of_ne (Ne.symm same) a.value

/-- A query that assigns values to a table. -/
def assigning (table : String) (label : Option String) (as : List Assigned) : Query :=
  (empty.setSource table label).performAll (as.map Assigned.step)

theorem reachable_assigning (table : String) (label : Option String) (as : List Assigned) :
    (assigning table label as).Reachable :=
  ⟨.setSource table label :: as.map Assigned.step, rfl⟩

theorem follows_assigning (table : String) (label : Option String) (as : List Assigned) :
    (assigning table label as).Follows (some (table, label)) as := by
  induction as using List.reverseRecOn with
  | nil =>
      refine ⟨rfl, fun part => ?_, fun part => ?_, fun _ => rfl⟩
      · cases part <;> rfl
      · cases part <;> exact fun _ member => (List.not_mem_nil member).elim
  | append_singleton as a ih =>
      have next := ih.perform (reachable_assigning table label as).supplied.consistent a
      rwa [assigning, List.map_append, performAll, List.foldl_append]

/-- Placeholders with values hold something. -/
theorem exists_holds {b : Bindings} (consistent : b.Consistent) {xs : Assignments}
    (named : ∀ x ∈ xs, Identifier.IsName x.2.toList) (supplied : ∀ x ∈ xs, x.2 ∈ b.placeholders) :
    ∃ cells, Holds b xs cells ∧ Lexeme.given cells = xs.map fun x => (x.1, b.get? x.2) := by
  induction xs with
  | nil => exact ⟨[], .nil, rfl⟩
  | cons x xs ih =>
      rw [List.forall_mem_cons] at named supplied
      obtain ⟨cells, holds, values⟩ := ih named.2 supplied.2
      obtain ⟨e, member, same⟩ := List.mem_map.mp supplied.1
      have value : b.get? x.2 = some e.value := same ▸ consistent.get?_of_mem member
      refine ⟨(x.1, e.value) :: cells, .cons ⟨rfl, named.1, supplied.1, value⟩ holds, ?_⟩
      rw [List.map_cons, ← values, value]
      rfl

theorem Follows.bound_eq {source : Option (String × Option String)} {as : List Assigned} {q : Query}
    (h : q.Follows source as) (part : InsertPart) :
    (q.assignments part).map (fun x => (x.1, q.bindings.get? x.2)) = bound part as := by
  rw [bound, ← h.names, List.map_map]
  apply List.map_congr_left
  intro x member
  rw [Function.comp_apply, ← h.values, Bindings.sharedValue, h.shared part x member, Option.bind_some]

end Query

/-! ## What an insertion says -/

namespace Lexeme

variable {β : Type}

/-- What stands in the places of a text. -/
def holes (ls : List (Lexeme β)) : List β :=
  ls.filterMap fun
    | hole b => some b
    | _ => none

@[simp] theorem holes_append (ls ms : List (Lexeme β)) : holes (ls ++ ms) = holes ls ++ holes ms :=
  List.filterMap_append

@[simp] theorem holes_chars (text : String) : holes (chars text : List (Lexeme β)) = [] := by
  simp [holes, chars]

@[simp] theorem holes_hole (b : β) : holes [hole b] = [b] := rfl

theorem holes_intercalate (separator : String) (ls : List (List (Lexeme β))) :
    holes ((chars separator).intercalate ls) = ls.flatMap holes := by
  induction ls with
  | nil => rfl
  | cons l ls ih =>
      cases ls with
      | nil => simp
      | cons m ls => simp [List.intercalate_cons_cons, ih]

@[simp] theorem holes_written (name : String) : holes (written name : List (Lexeme β)) = [] := by
  rw [written, holes_intercalate, List.flatMap_map, List.flatMap_eq_nil_iff]
  intro part _
  unfold Identifier.writtenPart
  split <;> rfl

theorem holes_equations (separator : String) (cells : List (String × β)) :
    holes (equations written separator cells) = cells.map (·.2) := by
  have one (cell : String × β) : holes (equation written cell) = [cell.2] := by simp [equation]
  rw [equations, holes_intercalate, List.flatMap_map, List.map_eq_flatMap]
  simp only [one]

/-- An insertion holds the values of its row, and then those of its changes. -/
theorem holes_insertInto (table : String) (sets changes : List (String × β)) :
    holes (insertInto written table sets changes) = sets.map (·.2) ++ changes.map (·.2) := by
  rw [insertInto, holes_intercalate]
  cases changes <;> simp [holes_equations]

end Lexeme

namespace Query

open Assigned (asked bound Agree)

theorem insertInto_bound_eq_iff (table : String) {as : List Assigned} :
    Lexeme.insertInto written table (bound .row as) (bound .changes as) =
        Lexeme.insertInto written table (asked .row as) (asked .changes as) ↔ Agree as := by
  rw [← Assigned.bound_eq_asked_iff]
  constructor
  · intro same
    have values := congrArg Lexeme.holes same
    rw [Lexeme.holes_insertInto, Lexeme.holes_insertInto] at values
    obtain ⟨row, changes⟩ := List.append_inj values (by simp [bound, asked])
    -- both have the same fields, so they are the same when their values are
    have cells (part : InsertPart) (values : (bound part as).map (·.2) = (asked part as).map (·.2)) :
        bound part as = asked part as := by
      simp only [bound, asked, List.map_map, List.map_inj_left, Function.comp_apply] at values ⊢
      exact fun field member => congrArg _ (values field member)
    exact ⟨cells .row row, cells .changes changes⟩
  · rintro ⟨row, changes⟩
    rw [row, changes]

/-- An insertion is built whatever is assigned, and says for each field, in the order in which they were first
assigned, the value that was last bound for it. That is the value last assigned to it in its part exactly when
the row agrees with the changes where it has a field that they bind values under. -/
theorem insert_assigned (table : String) (label : Option String) {as : List Assigned}
    (filled : ∃ a ∈ as, a.part = .row) :
    ∃ st, (assigning table label as).build .insert = .ok st ∧
      st.filled = Lexeme.insertInto written table (bound .row as) (bound .changes as) ∧
      (st.filled = Lexeme.insertInto written table (asked .row as) (asked .changes as) ↔ Agree as) := by
  have reached := reachable_assigning table label as
  have follows := follows_assigning table label as
  have consistent := reached.supplied.consistent
  obtain ⟨sets, holds, row⟩ := exists_holds consistent reached.wellFormed.sets reached.supplied.sets
  obtain ⟨changes, changing, updates⟩ := exists_holds consistent reached.wellFormed.updates reached.supplied.updates
  have some : sets ≠ [] := by
    rintro rfl
    obtain ⟨a, member, part⟩ := filled
    have unassigned : (assigning table label as).sets = [] := List.map_eq_nil_iff.mp row.symm
    have named : a.field ∈ Assigned.fields .row as := part ▸ Assigned.field_mem_fields member
    rw [← follows.names .row, assignments, unassigned] at named
    exact List.not_mem_nil named
  obtain ⟨st, built, shown⟩ := filled_insert follows.source holds changing some
  have rowShown : Lexeme.given sets = bound .row as := row.trans (follows.bound_eq .row)
  have changesShown : Lexeme.given changes = bound .changes as := updates.trans (follows.bound_eq .changes)
  rw [rowShown, changesShown] at shown
  exact ⟨st, built, shown, shown ▸ insertInto_bound_eq_iff table⟩

/-- The row has a field named like one that the changes bind a value under, and agrees with it in the end. -/
def lookalikes : List Assigned :=
  [⟨.row, "update.x", .text "1"⟩, ⟨.changes, "x", .text "2"⟩, ⟨.changes, "update.x", .text "3"⟩,
    ⟨.row, "update.x", .text "2"⟩]

theorem insert_assigned_lookalikes :
    (∃ a ∈ lookalikes, a.part = .row) ∧ Agree lookalikes ∧
      ∃ st, (assigning "update" (some "u") lookalikes).build .insert = .ok st ∧
        st.filled = Lexeme.insertInto written "update" [("update.x", some (.text "2"))]
          [("x", some (.text "2")), ("update.x", some (.text "3"))] := by
  have filled : ∃ a ∈ lookalikes, a.part = .row := ⟨⟨.row, "update.x", .text "1"⟩, by decide, rfl⟩
  have agree : Agree lookalikes := by
    intro field v w first second
    have one : Assigned.fields .row lookalikes = ["update.x"] := by decide +kernel
    have named := Assigned.mem_fields_iff.mpr (first ▸ Option.some_ne_none v)
    rw [one, List.mem_singleton] at named
    obtain rfl : field = "x" := Assigned.key_changes_injective named
    have last : Assigned.last? (Assigned.isTo .row (InsertPart.changes.key "x")) lookalikes =
        Assigned.last? (Assigned.isTo .changes "x") lookalikes := by decide +kernel
    exact Option.some.inj (first.symm.trans (last.trans second))
  obtain ⟨st, built, -, shown⟩ := insert_assigned "update" (some "u") filled
  exact ⟨filled, agree, st, built, (shown.mpr agree).trans (by decide +kernel)⟩

/-- A change that is assigned last takes the place of the value of the row. -/
theorem insert_not_assigned :
    ¬ ∀ (table : String) (label : Option String) (as : List Assigned), (∃ a ∈ as, a.part = .row) →
      ∃ st, (assigning table label as).build .insert = .ok st ∧
        st.filled = Lexeme.insertInto written table (asked .row as) (asked .changes as) := by
  intro all
  obtain ⟨st, built, shown⟩ := all "update" none [⟨.row, "update.x", .text "1"⟩, ⟨.changes, "x", .text "2"⟩]
    ⟨_, List.mem_cons_self .., rfl⟩
  have said : (assigning "update" none [⟨.row, "update.x", .text "1"⟩, ⟨.changes, "x", .text "2"⟩]).build .insert =
      .ok ⟨"INSERT INTO \x60update\x60 SET \x60update\x60.\x60x\x60 = :update_x " ++
        "ON DUPLICATE KEY UPDATE \x60x\x60 = :update_x", [("update_x", .text "2")]⟩ := by decide +kernel
  cases built.symm.trans said
  exact absurd shown (by decide +kernel)

end Query

end TableMapper
