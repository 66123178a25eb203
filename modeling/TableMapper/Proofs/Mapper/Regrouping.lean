import TableMapper.Proofs.Mapper.Grouping

/-! # Joined rows as pairs and in groups

Joined rows are read one by one as pairs, or into groups. Both readings fail at the same rows, and the groups
are made of the pairs: every joined side of a pair is in exactly one group, the one of its key.
-/

namespace TableMapper

section

variable {α β κ : Type} [DecidableEq κ]

/-- Keys between them have all the joined sides of their rows. -/
theorem perm_flatMap_sides {key : α → κ} {keys : List κ} (distinct : keys.Nodup)
    {pairs : List (α × Option β)} (covered : ∀ p ∈ pairs, key p.1 ∈ keys) :
    (keys.flatMap fun k => sides key k pairs).Perm (pairs.filterMap (·.2)) := by
  induction keys generalizing pairs with
  | nil =>
      have none : pairs = [] := List.eq_nil_iff_forall_not_mem.mpr fun p member => by
        cases covered p member
      rw [none]
      exact .refl []
  | cons k keys ih =>
      obtain ⟨new, distinct⟩ := List.nodup_cons.mp distinct
      -- the rows of other keys are left for the other keys
      have others : ∀ p ∈ pairs.filter (fun p => ¬ key p.1 = k), key p.1 ∈ keys := by
        intro p member
        obtain ⟨inside, other⟩ := List.mem_filter.mp member
        exact (List.mem_cons.mp (covered p inside)).resolve_left (of_decide_eq_true other)
      have unchanged : ∀ k' ∈ keys, sides key k' (pairs.filter fun p => ¬ key p.1 = k) = sides key k' pairs := by
        intro k' member
        have apart : k' ≠ k := fun same => new (same ▸ member)
        rw [sides, sides, List.filter_filter]
        congr 2
        funext p
        by_cases same : key p.1 = k'
        · simp [same, apart]
        · simp [same]
      rw [List.flatMap_cons, List.flatMap_congr fun k' member => (unchanged k' member).symm]
      refine ((ih distinct others).append_left _).trans ?_
      rw [sides, ← List.filterMap_append]
      simpa using (List.filter_append_perm (fun p => key p.1 = k) pairs).filterMap (·.2)

/-- Grouping neither loses nor doubles a joined side. -/
theorem perm_flatMap_grouped (key : α → κ) (pairs : List (α × Option β)) :
    ((grouped key pairs).flatMap (·.2)).Perm (pairs.filterMap (·.2)) := by
  have covered : ∀ p ∈ pairs, key p.1 ∈ (firsts key (pairs.map (·.1))).map key := fun p member =>
    mem_map_firsts.mpr (List.mem_map_of_mem (List.mem_map_of_mem member))
  have keys := perm_flatMap_sides (nodup_map_firsts key (pairs.map (·.1))) covered
  rw [List.flatMap_map] at keys
  rwa [grouped, List.flatMap_map]

end

namespace Joined

variable {α β : Type} [Entity α]

/-- Pairs with one text of the key put together; without a key every pair stays alone. -/
def regrouped (pairs : List (α × Option β)) : List (α × List β) :=
  if Entity.primaryKey α = [] then pairs.map fun p => (p.1, p.2.toList)
  else grouped Entity.keyText pairs

theorem addRows_of_keyless (keyless : Entity.primaryKey α = []) (pairs : List (α × Option β))
    (groups : List (Group α β)) :
    addRows pairs groups = groups ++ pairs.map fun p => ⟨none, p.1, p.2.toList⟩ := by
  induction pairs generalizing groups with
  | nil =>
      rw [List.map_nil, List.append_nil]
      rfl
  | cons p pairs ih =>
      change addRows pairs (addRow p.1 p.2 groups) = _
      rw [ih, addRow, keyless, List.isEmpty_nil, if_pos rfl, List.append_assoc, List.singleton_append,
        List.map_cons]

theorem map_addRows_eq_regrouped (pairs : List (α × Option β)) :
    (addRows pairs []).map (fun g => (g.entity, g.joined)) = regrouped pairs := by
  unfold regrouped
  split
  · next keyless =>
    rw [addRows_of_keyless keyless, List.nil_append, List.map_map]
    rfl
  · next keyed => exact map_addRows keyed pairs

theorem perm_flatMap_regrouped (pairs : List (α × Option β)) :
    ((regrouped pairs).flatMap (·.2)).Perm (pairs.filterMap (·.2)) := by
  unfold regrouped
  split
  · rw [List.flatMap_map, List.filterMap_eq_flatMap_toList]
  · exact perm_flatMap_grouped Entity.keyText pairs

variable [Decodable β]

/-- Rows are read into groups exactly when they are read as pairs, and with the same fault when they are not.
The groups are the pairs put together by the text of the key, in the order in which the texts first appear:
each has the entity of its first pair, and the joined sides of its pairs in their order. Together they have
the joined sides of all pairs, each once. -/
theorem group_eq_map_split (label : String) (rows : List Row) :
    (∀ e, group α β label rows = .error e ↔ split α β label rows = .error e) ∧
      group α β label rows = (split α β label rows).map regrouped ∧
      ∀ pairs : List (α × Option β), ((regrouped pairs).flatMap (·.2)).Perm (pairs.filterMap (·.2)) := by
  have regroups : group α β label rows = (split α β label rows).map regrouped := by
    rw [group_eq]
    exact congrArg (Except.map · _) (funext map_addRows_eq_regrouped)
  refine ⟨fun e => ?_, regroups, perm_flatMap_regrouped⟩
  rw [regroups]
  cases split α β label rows <;> simp [Except.map]

end Joined

end TableMapper
