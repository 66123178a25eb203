import Mathlib.Tactic.Tauto
import TableMapper.Proofs.KeyMap
import TableMapper.Proofs.Mapper.Grouping
import TableMapper.Proofs.Outcome
import TableMapper.Proofs.Row

/-! # The columns of a joined side

A joined side is read from the columns of its type, each under its name behind the label of the join. Whether
there is one is asked of every column that starts with the label, so a column of another join, or of the
entity, may stand in for a match. The readings that the own columns give alone are those of rows in which no
such column has a value where the own ones have none.
-/

namespace TableMapper

open Decodable (ofRow columns ReadsOwn)

namespace Joined

variable {α β : Type} [Entity α] [Decodable β]

/-- The columns of a joined side, as they are named in a row. -/
def sideColumns (β : Type) [Decodable β] (label : String) : List String :=
  (columns β).map (EntityJoin.start label ++ ·)

/-- The joined side as a row of its own columns alone. -/
def ownSide (β : Type) [Decodable β] (label : String) (r : Row) : Row :=
  Row.tabulate (columns β) fun c => r.find? (EntityJoin.start label ++ c)

/-- Every column of the joined side is NULL or absent. -/
def Unmatched (β : Type) [Decodable β] (label : String) (r : Row) : Prop :=
  ∀ c ∈ sideColumns β label, r.isNull c = true

instance (label : String) (r : Row) : Decidable (Unmatched β label r) :=
  inferInstanceAs (Decidable (∀ c ∈ sideColumns β label, _))

/-- Some column that starts with the label, whoever it belongs to, is not NULL. -/
def Filled (label : String) (r : Row) : Prop :=
  ∃ c v, (EntityJoin.start label ++ c, v) ∈ r.cells ∧ v.isNull = false

theorem filled_iff {label : String} {r : Row} :
    Filled label r ↔ (r.under (EntityJoin.start label)).allNull = false := by
  simp only [Filled, Row.allNull, Row.under, List.all_eq_false, List.mem_filterMap, Option.map_eq_some_iff,
    Text.dropPrefix?_eq_some_iff, Bool.not_eq_true]
  constructor
  · rintro ⟨c, v, member, filled⟩
    exact ⟨(c, v), ⟨_, member, c, rfl, rfl⟩, filled⟩
  · rintro ⟨_, ⟨⟨_, v⟩, member, c, rfl, rfl⟩, filled⟩
    exact ⟨c, v, member, filled⟩

instance (label : String) (r : Row) : Decidable (Filled label r) := decidable_of_iff _ filled_iff.symm

/-- The rows that are taken for rows without a match. -/
def TakenUnmatched (β : Type) [Decodable β] (label : String) (r : Row) : Prop :=
  Unmatched β label r ∧ ¬ Filled label r

instance (label : String) (r : Row) : Decidable (TakenUnmatched β label r) :=
  inferInstanceAs (Decidable (_ ∧ _))

/-- Reads a row as an entity with a joined side from its own columns, where the row is not taken for one
without a match. -/
def pairUnless (α β : Type) [Entity α] [Decodable β] (none : Row → Prop) [DecidablePred none]
    (label : String) (r : Row) : Except Error (α × Option β) := do
  let e ← ofRow r
  if none r then .ok (e, .none)
  else
    let j ← ofRow (ownSide β label r)
    .ok (e, some j)

/-! ## One row -/

theorem unmatched_of_not_filled {label : String} {r : Row} (empty : ¬ Filled label r) :
    Unmatched β label r := by
  intro column named
  obtain ⟨c, -, rfl⟩ := List.mem_map.mp named
  rw [Row.isNull]
  cases found : r.find? (EntityJoin.start label ++ c) with
  | none => rfl
  | some v =>
      have member : (EntityJoin.start label ++ c, v) ∈ r.cells := mem_of_lookup_eq_some found
      cases null : v.isNull with
      | true => exact null
      | false => exact (empty ⟨c, v, member, null⟩).elim

theorem side_eq (own : ReadsOwn β) (label : String) (r : Row) :
    side β label r = if Filled label r then (ofRow (ownSide β label r)).map some else .ok none := by
  have agree : (r.under (EntityJoin.start label)).AgreeOn (columns β) (ownSide β label r) := by
    intro c member
    rw [Row.find?_under, ownSide, Row.find?_tabulate, if_pos member]
  rw [side, own _ _ agree]
  by_cases filled : Filled label r
  · rw [if_pos filled, if_neg (by rw [filled_iff.mp filled]; exact Bool.false_ne_true)]
  · rw [if_neg filled, if_pos (Bool.not_eq_false _ ▸ fun null => filled (filled_iff.mpr null))]

/-- A row has no joined side if its own columns have none, unless another column is taken for it. -/
theorem pair_eq (own : ReadsOwn β) (label : String) (r : Row) :
    (do let e ← ofRow r; let j ← side β label r; .ok (e, j) : Except Error (α × Option β)) =
      pairUnless α β (TakenUnmatched β label) label r := by
  have taken : TakenUnmatched β label r ↔ ¬ Filled label r :=
    ⟨And.right, fun empty => ⟨unmatched_of_not_filled empty, empty⟩⟩
  rw [pairUnless]
  cases (ofRow r : Except Error α) with
  | error => rfl
  | ok e =>
      change (side β label r >>= fun j => Except.ok (e, j)) = ite (TakenUnmatched β label r) _ _
      rw [side_eq own, if_congr taken rfl rfl, ite_not]
      split
      · cases (ofRow (ownSide β label r) : Except Error β) <;> rfl
      · rfl

/-! ## Rows that agree -/

section

variable {label : String} {r r' : Row}

theorem unmatched_iff_of_agree (agree : r.AgreeOn (sideColumns β label) r') :
    Unmatched β label r ↔ Unmatched β label r' := by
  refine forall₂_congr fun c member => ?_
  rw [Row.isNull, Row.isNull, agree c member]

theorem ownSide_eq_of_agree (agree : r.AgreeOn (sideColumns β label) r') :
    ownSide β label r = ownSide β label r' :=
  congrArg Row.mk (List.filterMap_congr fun c member =>
    congrArg (Option.map (c, ·)) (agree _ (List.mem_map_of_mem member)))

theorem takenUnmatched_iff (agree : r.AgreeOn (columns α ++ sideColumns β label) r') :
    (TakenUnmatched β label r ↔ TakenUnmatched β label r') ↔
      (Unmatched β label r → (Filled label r ↔ Filled label r')) := by
  rw [TakenUnmatched, TakenUnmatched, ← unmatched_iff_of_agree (Row.agreeOn_append.mp agree).2]
  tauto

variable {none none' : Row → Prop} [DecidablePred none] [DecidablePred none']

theorem pairUnless_congr (own : ReadsOwn α) (agree : r.AgreeOn (columns α ++ sideColumns β label) r')
    (same : none r ↔ none' r') : pairUnless α β none label r = pairUnless α β none' label r' := by
  rw [Row.agreeOn_append] at agree
  simp only [pairUnless, own r r' agree.1, ownSide_eq_of_agree agree.2, same]

/-- Taking a row for one without a match always makes a difference. -/
theorem pairUnless_eq_iff (own : ReadsOwn α) (agree : r.AgreeOn (columns α ++ sideColumns β label) r')
    {e : α} (read : ofRow r = .ok e) :
    pairUnless α β none label r = pairUnless α β none' label r' ↔ (none r ↔ none' r') := by
  refine ⟨fun same => ?_, pairUnless_congr own agree⟩
  rw [Row.agreeOn_append] at agree
  have read' : ofRow r' = .ok e := own r r' agree.1 ▸ read
  have differ : ∀ x : Except Error β, Except.ok (e, .none) ≠ x >>= fun j => Except.ok (e, some j) := by
    intro x
    cases x <;> simp [bind, Except.bind]
  rw [pairUnless, pairUnless, read, read', ownSide_eq_of_agree agree.2] at same
  change ite (none r) _ _ = ite (none' r') _ _ at same
  by_cases here : none r <;> by_cases there : none' r'
  · exact iff_of_true here there
  · rw [if_pos here, if_neg there] at same
    exact (differ _ same).elim
  · rw [if_neg here, if_pos there] at same
    exact (differ _ same.symm).elim
  · exact iff_of_false here there

end

/-! ## Lists of rows -/

theorem split_eq_mapM (own : ReadsOwn β) (label : String) (rows : List Row) :
    split α β label rows = rows.mapM (pairUnless α β (TakenUnmatched β label) label) := by
  induction rows with
  | nil => rfl
  | cons r rs ih =>
      rw [List.mapM_cons, ← ih, ← pair_eq own, split]
      cases (ofRow r : Except Error α) with
      | error => rfl
      | ok e => cases side β label r <;> rfl

theorem split_congr (ownα : ReadsOwn α) (ownβ : ReadsOwn β) {label : String} {rows rows' : List Row}
    (alike : List.Forall₂ (fun r r' => r.AgreeOn (columns α ++ sideColumns β label) r' ∧
      (Unmatched β label r → (Filled label r ↔ Filled label r'))) rows rows') :
    split α β label rows = split α β label rows' := by
  rw [split_eq_mapM ownβ, split_eq_mapM ownβ]
  induction alike with
  | nil => rfl
  | cons first others ih =>
      obtain ⟨agree, alike⟩ := first
      rw [List.mapM_cons, List.mapM_cons, ih,
        pairUnless_congr ownα agree ((takenUnmatched_iff agree).mpr alike)]

/-- The columns of a row that start with the label are all those of the joined side, each once. -/
theorem not_filled_of_own {label : String} {r : Row} (distinct : (r.cells.map (·.1)).Nodup)
    (own : ∀ c, EntityJoin.start label ++ c ∈ r.cells.map (·.1) → c ∈ columns β)
    (unmatched : Unmatched β label r) : ¬ Filled label r := by
  rintro ⟨c, v, member, filled⟩
  have named : EntityJoin.start label ++ c ∈ sideColumns β label :=
    List.mem_map_of_mem (own c (List.mem_map_of_mem member))
  have null := unmatched _ named
  have found : r.find? (EntityJoin.start label ++ c) = some v := (lookup_eq_some_iff_mem distinct).mpr member
  rw [Row.isNull, found] at null
  cases filled.symm.trans null

/-- What rows are read as. Own columns alone say what the entity and the joined side are, and whether there
is a joined side unless some other column that starts with the label has a value where all of them have none:
then one is read, from no values. So rows that agree in their own columns are read alike exactly if they do
where that happens, and never if it happens to one of two. It does not where each column stands once and every
column that starts with the label is one of the joined side's. -/
theorem split_by_own_columns_iff (ownα : ReadsOwn α) (ownβ : ReadsOwn β) (label : String) :
    (∀ rows : List Row, split α β label rows = rows.mapM (pairUnless α β (TakenUnmatched β label) label)) ∧
      (∀ rows rows' : List Row,
        List.Forall₂ (fun r r' => r.AgreeOn (columns α ++ sideColumns β label) r' ∧
          (Unmatched β label r → (Filled label r ↔ Filled label r'))) rows rows' →
        split α β label rows = split α β label rows') ∧
      (∀ (r r' : Row) (e : α), r.AgreeOn (columns α ++ sideColumns β label) r' → ofRow r = .ok e →
        (split α β label [r] = split α β label [r'] ↔
          (Unmatched β label r → (Filled label r ↔ Filled label r'))) ∧
        (split α β label [r] = [r].mapM (pairUnless α β (Unmatched β label) label) ↔
          (Unmatched β label r → ¬ Filled label r))) ∧
      ∀ r : Row, (r.cells.map (·.1)).Nodup →
        (∀ c, EntityJoin.start label ++ c ∈ r.cells.map (·.1) → c ∈ columns β) →
        Unmatched β label r → ¬ Filled label r := by
  refine ⟨split_eq_mapM ownβ label, fun _ _ => split_congr ownα ownβ, ?_, fun _ => not_filled_of_own⟩
  intro r r' e agree read
  constructor
  · rw [split_eq_mapM ownβ, split_eq_mapM ownβ, mapM_singleton_eq_iff, pairUnless_eq_iff ownα agree read]
    exact takenUnmatched_iff agree
  · rw [split_eq_mapM ownβ, mapM_singleton_eq_iff, pairUnless_eq_iff ownα (fun _ _ => rfl) read,
      TakenUnmatched]
    tauto

end Joined

/-! ## Events and homes -/

open Shop (auditLog address)

def event : Record auditLog := ⟨[.text "e", .null], rfl, rfl, trivial⟩

/-- An event without a home, in a row with other columns. -/
def homelessRow (others : List (String × Value)) : Row :=
  ⟨(joinedRow "home" event (none : Option (Record address))).cells ++ others⟩

/-- The columns of a join with another label, and those of the event itself, change nothing. Those of a join
whose label goes on with two underscores behind that of the first do. -/
theorem split_by_own_columns_homes :
    ReadsOwn (Record auditLog) ∧ ReadsOwn (Record address) ∧
      Joined.split (Record auditLog) (Record address) "home"
          [homelessRow [("homeless", .bool true)], homelessRow []] =
        Joined.split (Record auditLog) (Record address) "home"
          [homelessRow [], homelessRow [("owner__id", .integer (.one .int64))]] ∧
      Joined.split (Record auditLog) (Record address) "home" [homelessRow []] ≠
        Joined.split (Record auditLog) (Record address) "home"
          [homelessRow [("home__old__id", .integer (.one .int64))]] := by
  have ownEvents := Record.readsOwn auditLog
  have ownHomes := Record.readsOwn address
  obtain ⟨-, alike, single, -⟩ := Joined.split_by_own_columns_iff ownEvents ownHomes "home"
  refine ⟨ownEvents, ownHomes, alike _ _ (by decide +kernel), fun same => ?_⟩
  have agree : (homelessRow []).AgreeOn (columns (Record auditLog) ++ Joined.sideColumns (Record address) "home")
      (homelessRow [("home__old__id", .integer (.one .int64))]) := by decide +kernel
  have filled := ((single _ _ event agree rfl).1.mp same) (by decide +kernel)
  exact absurd filled (by decide +kernel)

/-- An event that was joined with its home and, under a label that goes on behind the first one, with an
earlier home. It has none now, and cannot be read because it had one. -/
theorem split_not_by_own_columns :
    (homelessRow []).AgreeOn (columns (Record auditLog) ++ Joined.sideColumns (Record address) "home")
        (homelessRow [("home__old__id", .integer (.one .int64))]) ∧
      Joined.Unmatched (Record address) "home" (homelessRow [("home__old__id", .integer (.one .int64))]) ∧
      Joined.split (Record auditLog) (Record address) "home" [homelessRow []] = .ok [(event, none)] ∧
      Joined.split (Record auditLog) (Record address) "home"
          [homelessRow [("home__old__id", .integer (.one .int64))]] =
        .error (.typeConversion (.mismatch "i64" "null")) := by
  refine ⟨by decide +kernel, by decide +kernel, rfl, rfl⟩

end TableMapper
