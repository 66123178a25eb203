import Mathlib.Data.List.Perm.Basic
import TableMapper.Code.Entity
import TableMapper.Code.Mapper
import TableMapper.Proofs.Code.Identifiers

/-! # Names of methods

The methods of an entity and of a mapper are named after fields and joins, with fixed beginnings, next to
methods of fixed names. So two methods have one name in few cases only. Main statement: `nodup_methods_iff`.
-/

namespace TableMapper.Code

/-- The identifiers of methods. -/
def Method.identifiers (methods : List Method) : List String := (methods.map (·.name)).map identifier

/-- Two names for each member of a list. -/
theorem nodup_pairs_iff {α β : Type} {l : List α} {f g : α → β} :
    (l.flatMap fun a => [f a, g a]).Nodup ↔
      (l.map f).Nodup ∧ (l.map g).Nodup ∧ ∀ a ∈ l, ∀ b ∈ l, f a ≠ g b := by
  have apart : (l.flatMap fun a => [f a, g a]).Perm (l.map f ++ l.map g) := by
    simpa only [List.map_eq_flatMap] using (List.map_append_flatMap_perm l f fun a => [g a]).symm
  rw [apart.nodup_iff, List.nodup_append]
  simp only [List.forall_mem_map]

theorem identifier_of_head {name : String} (other : name.toList.head? ≠ some 'r') : identifier name = name := by
  unfold identifier rawPart?
  split
  · next shape => simp [shape] at other
  · rfl

theorem append_left_inj {start s t : String} : start ++ s = start ++ t ↔ s = t := by
  simp [← String.toList_inj]

/-! ## Entities -/

theorem name_setter (f : CodeField) : (setter f).name = "set_" ++ f.plainName := by
  unfold setter
  cases f.rule <;> rfl

theorem identifiers_entityMethods (t : CodeTable) : Method.identifiers (entityMethods t) =
    "new" :: t.fields.flatMap fun f => [identifier f.name, "set_" ++ f.plainName] := by
  have pair (f : CodeField) : ([getter f, setter f].map (·.name)).map identifier =
      [identifier f.name, "set_" ++ f.plainName] := by
    have setter : identifier (setter f).name = "set_" ++ f.plainName := by
      rw [name_setter, identifier_of_head (by simp)]
    exact congrArg (_ :: [·]) setter
  rw [Method.identifiers, entityMethods, List.map_cons, List.map_cons, List.map_flatMap, List.map_flatMap]
  simp only [pair]
  rfl

/-- The getter of a field has the plain name of the field, but for words that take an underscore. -/
theorem identifier_eq_iff {column name : String}
    (other : ∀ word ∈ pathKeywords, name ≠ word ++ "_" ∧ name ≠ word) :
    identifier (fieldName column) = name ↔ plainName column = name := by
  rw [identifier_fieldName]
  split
  · next path =>
    have apart := other _ (List.contains_iff_mem.mp path)
    exact ⟨fun same => absurd same.symm apart.1, fun same => absurd same.symm apart.2⟩
  · rfl

/-- The methods of an entity have different names unless a field is named `new`, or after the setter of
another. -/
theorem nodup_entityMethods_iff {m : LinkedModel} {columns : List SchemaColumn} {t : CodeTable}
    (built : CodeTable.build m columns = .ok t) : (Method.identifiers (entityMethods t)).Nodup ↔
      (∀ f ∈ t.fields, f.plainName ≠ "new") ∧
        ∀ f ∈ t.fields, ∀ g ∈ t.fields, f.plainName ≠ "set_" ++ g.plainName := by
  obtain ⟨-, made, apart, -⟩ := CodeTable.build_eq_ok.mp built
  have names := CodeTable.names_of_fields made
  have start (f : CodeField) (member : f ∈ t.fields) : identifier f.name = "new" ↔ f.plainName = "new" := by
    rw [(names f member).1, (names f member).2]
    exact identifier_eq_iff (by decide)
  have setters (f g : CodeField) (member : f ∈ t.fields) :
      identifier f.name = "set_" ++ g.plainName ↔ f.plainName = "set_" ++ g.plainName := by
    rw [(names f member).1, (names f member).2]
    refine identifier_eq_iff fun word path => ?_
    have longer : ∀ word ∈ pathKeywords, ∀ w ∈ [word ++ "_", word], ¬ "set_".toList <+: w.toList := by decide
    have held : "set_".toList <+: ("set_" ++ g.plainName).toList := by simp
    exact ⟨fun same => longer word path _ (by simp) (same ▸ held),
      fun same => longer word path _ (by simp) (same ▸ held)⟩
  have free : "new" ∉ t.fields.flatMap (fun f => [identifier f.name, "set_" ++ f.plainName]) ↔
      ∀ f ∈ t.fields, f.plainName ≠ "new" := by
    have long (s : String) : "new" ≠ "set_" ++ s := fun same => by simpa using congrArg String.toList same
    simp only [List.mem_flatMap, List.mem_cons, List.not_mem_nil, or_false, long, not_exists, not_and]
    exact forall₂_congr fun f member => not_congr (eq_comm.trans (start f member))
  have distinct : (t.fields.map fun f => "set_" ++ f.plainName).Nodup := by
    simpa only [List.map_map, Function.comp_def] using apart.map fun _ _ => append_left_inj.mp
  rw [identifiers_entityMethods, List.nodup_cons, free, nodup_pairs_iff]
  simp only [CodeTable.nodup_identifiers built, distinct, true_and]
  exact and_congr_right' <| forall₂_congr fun f member => forall₂_congr fun g _ =>
    not_congr (setters f g member)

/-! ## Mappers -/

/-- The names that the methods of mappers have whatever the table, with and without a key. -/
def fixedNames (keyed : Bool) : List String :=
  let withKey (names : List String) := if keyed then names else []
  ["new", "with_cache", "executor", "query"] ++ withKey ["cache", "cache_key"] ++
    ["find_all", "select", "select_one", "select_indexed", "count", "select_with_found_rows"] ++
    withKey ["find_by_keys"] ++ ["insert"] ++ withKey ["upsert", "update", "delete", "invalidate"]

/-- The names of the methods for joins. -/
def joinNames (joins : List LinkedJoin) : List String :=
  joins.flatMap fun j => ["join_" ++ plainName j.label, "select_with_" ++ plainName j.label]

theorem mem_joinNames {joins : List LinkedJoin} {name : String} : name ∈ joinNames joins ↔
    ∃ j ∈ joins, name = "join_" ++ plainName j.label ∨ name = "select_with_" ++ plainName j.label := by
  simp only [joinNames, List.mem_flatMap, List.mem_cons, List.not_mem_nil, or_false]

theorem names_joinMethods (name : String) (joins : List LinkedJoin) :
    (joins.flatMap (joinMethods name)).map (·.name) = joinNames joins := by
  have pair (j : LinkedJoin) : (joinMethods name j).map (·.name) =
      ["join_" ++ plainName j.label, "select_with_" ++ plainName j.label] := by
    unfold joinMethods
    cases j.relation <;> rfl
  rw [List.map_flatMap, joinNames]
  exact congrArg (joins.flatMap ·) (funext pair)

theorem names_mapperMethods_of_empty {t : CodeTable} (none : t.primaryFields = []) :
    (mapperMethods t).map (·.name) = fixedNames false ++ joinNames t.model.joins := by
  simp only [mapperMethods, none, List.map_append, names_joinMethods]
  rfl

/-- With a key there is the look-up by the key, too. -/
theorem perm_names_mapperMethods {t : CodeTable} (keyed : t.primaryFields ≠ []) :
    ((mapperMethods t).map (·.name)).Perm
      (findByPrimaryName t.primaryFields :: (fixedNames true ++ joinNames t.model.joins)) := by
  simp only [mapperMethods, List.isEmpty_eq_false_iff.mpr keyed, List.map_append, names_joinMethods]
  exact (List.perm_middle : (["new", "with_cache", "executor", "query", "cache", "cache_key"] ++ _ :: _).Perm _)

/-- A name with a given beginning is among some names only if it is the one that begins so. -/
theorem append_mem_iff {start rest : String} {names : List String} (held : start ++ rest ∈ names)
    (single : ∀ name ∈ names, start.toList <+: name.toList → name = start ++ rest) {s : String} :
    start ++ s ∈ names ↔ s = rest := by
  constructor
  · intro member
    exact append_left_inj.mp (single _ member (by simp))
  · rintro rfl
    exact held

theorem select_mem_fixedNames {keyed : Bool} {s : String} :
    "select_with_" ++ s ∈ fixedNames keyed ↔ s = "found_rows" := by
  cases keyed
  · exact append_mem_iff (by decide) (by decide)
  · exact append_mem_iff (by decide) (by decide)

theorem find_mem_fixedNames {s : String} : "find_by_" ++ s ∈ fixedNames true ↔ s = "keys" :=
  append_mem_iff (by decide) (by decide)

theorem join_not_mem_fixedNames {keyed : Bool} {s : String} : "join_" ++ s ∉ fixedNames keyed := by
  have none : ∀ keyed, ∀ name ∈ fixedNames keyed, ¬ "join_".toList <+: name.toList := by decide
  exact fun member => none keyed _ member (by simp)

theorem nodup_joinNames_iff {joins : List LinkedJoin} :
    (joinNames joins).Nodup ↔ (joins.map fun j => plainName j.label).Nodup := by
  have each (start : String) : (joins.map fun j => start ++ plainName j.label).Nodup ↔
      (joins.map fun j => plainName j.label).Nodup := by
    have injective : Function.Injective (start ++ ·) := fun _ _ => append_left_inj.mp
    simpa only [List.map_map, Function.comp_def] using
      List.nodup_map_iff (l := joins.map fun j => plainName j.label) injective
  have apart (s s' : String) : "join_" ++ s ≠ "select_with_" ++ s' := fun same => by
    simpa using congrArg String.toList same
  rw [joinNames, nodup_pairs_iff, each, each]
  simp only [apart, ne_eq, not_false_eq_true, implies_true, and_true, and_self]

theorem nodup_fixedNames_append_iff {keyed : Bool} {joins : List LinkedJoin} :
    (fixedNames keyed ++ joinNames joins).Nodup ↔
      (joins.map fun j => plainName j.label).Nodup ∧ ∀ j ∈ joins, plainName j.label ≠ "found_rows" := by
  have fixed : (fixedNames keyed).Nodup := by
    revert keyed
    decide
  rw [List.nodup_append_comm, List.nodup_append', nodup_joinNames_iff, List.disjoint_left]
  simp only [fixed, true_and, mem_joinNames]
  refine and_congr_right' ⟨?_, ?_⟩
  · intro apart j member same
    exact apart ⟨j, member, .inr rfl⟩ (select_mem_fixedNames.mpr same)
  · rintro apart _ ⟨j, member, rfl | rfl⟩ held
    · exact join_not_mem_fixedNames held
    · exact apart j member (select_mem_fixedNames.mp held)

/-- The look-up by a key has the name of the look-up by several keys only where one field is named so. -/
theorem find_eq_iff {primary : List CodeField} :
    "_and_".intercalate ((primary.map (·.plainName)).map plainName) = "keys" ↔
      ∃ f, primary = [f] ∧ plainName f.plainName = "keys" := by
  cases primary with
  | nil => simp
  | cons f rest =>
      cases rest with
      | nil => simp
      | cons g rest =>
          simp only [List.map_cons, String.intercalate_cons_cons, reduceCtorEq, List.cons.injEq, and_false,
            false_and, exists_false, iff_false]
          intro same
          have held : '_' ∈ "keys".toList := by
            rw [← same]
            simp
          exact absurd held (by decide)

theorem identifiers_mapperMethods (t : CodeTable) :
    Method.identifiers (mapperMethods t) = (mapperMethods t).map (·.name) := by
  have fixed : ∀ keyed, ∀ name ∈ fixedNames keyed, name.toList.head? ≠ some 'r' := by decide
  have others : ∀ name ∈ joinNames t.model.joins, name.toList.head? ≠ some 'r' := by
    intro name member
    obtain ⟨j, -, rfl | rfl⟩ := mem_joinNames.mp member <;> simp
  have all : ∀ name ∈ (mapperMethods t).map (·.name), name.toList.head? ≠ some 'r' := by
    by_cases keyed : t.primaryFields = []
    · rw [names_mapperMethods_of_empty keyed, List.forall_mem_append]
      exact ⟨fixed false, others⟩
    · intro name member
      rw [(perm_names_mapperMethods keyed).mem_iff, List.mem_cons, List.mem_append] at member
      rcases member with rfl | member | member
      · simp [findByPrimaryName, findByName]
      · exact fixed true name member
      · exact others name member
  rw [Method.identifiers]
  exact (List.map_congr_left fun name member => identifier_of_head (all name member)).trans (List.map_id _)

/-- The methods of a mapper have different names unless two joins have one label in snake case, a join is
labelled like the select with a count of rows, or the one field of the key is named like the look-up by
several keys. -/
theorem nodup_mapperMethods_iff (t : CodeTable) : (Method.identifiers (mapperMethods t)).Nodup ↔
    (t.model.joins.map fun j => plainName j.label).Nodup ∧
      (∀ j ∈ t.model.joins, plainName j.label ≠ "found_rows") ∧
      ∀ f, t.primaryFields = [f] → plainName f.plainName ≠ "keys" := by
  rw [identifiers_mapperMethods]
  by_cases keyed : t.primaryFields = []
  · rw [names_mapperMethods_of_empty keyed, nodup_fixedNames_append_iff, keyed]
    simp
  · have other (s : String) : "find_by_" ++ s ∉ joinNames t.model.joins := by
      intro member
      obtain ⟨j, -, same | same⟩ := mem_joinNames.mp member <;> simpa using congrArg String.toList same
    rw [(perm_names_mapperMethods keyed).nodup_iff, List.nodup_cons, nodup_fixedNames_append_iff,
      findByPrimaryName, findByName, List.mem_append, find_mem_fixedNames, find_eq_iff, and_comm, and_assoc]
    simp only [other, or_false, not_exists, not_and, ne_eq]

end TableMapper.Code

namespace TableMapper.CodeTable

/-- When the methods of the entity and of the mapper of a table have different names. -/
theorem nodup_methods_iff {m : LinkedModel} {columns : List SchemaColumn} {t : CodeTable}
    (built : build m columns = .ok t) :
    ((Code.Method.identifiers (Code.entityMethods t)).Nodup ↔
      (∀ f ∈ t.fields, f.plainName ≠ "new") ∧
        ∀ f ∈ t.fields, ∀ g ∈ t.fields, f.plainName ≠ "set_" ++ g.plainName) ∧
    ((Code.Method.identifiers (Code.mapperMethods t)).Nodup ↔
      (m.joins.map fun j => Code.plainName j.label).Nodup ∧
        (∀ j ∈ m.joins, Code.plainName j.label ≠ "found_rows") ∧
        ∀ f, t.primaryFields = [f] → Code.plainName f.plainName ≠ "keys") := by
  have linked : t.model = m := (build_eq_ok.mp built).1
  rw [← linked]
  exact ⟨Code.nodup_entityMethods_iff built, Code.nodup_mapperMethods_iff t⟩

/-- A table with joins of given labels to itself. -/
def selfJoined (labels : List String) : LinkedModel :=
  let base : TableModel :=
    { name := "user", author := "a", copyright := "c", className := "User", table := "user", prefixes := []
      cachePrefix := "u", cacheEnabled := false, entity := ⟨"e", "e"⟩, mapper := ⟨"m", "m"⟩, repository := none
      rules := .empty, declaredJoins := [] }
  { base with
    joins := labels.map fun label =>
      { label, target := "user", relation := .one, type := .inner, localAlias := "user", localField := "id"
        remoteAlias := label, remoteField := "id", model := base } }

def keyColumn : SchemaColumn := { name := "id", type := "int", key := .primary }

theorem nodup_methods_self_joined : ∃ t, build (selfJoined ["boss", "deputy"]) [keyColumn] = .ok t ∧
    ((Code.Method.identifiers (Code.entityMethods t)).Nodup ↔
      (∀ f ∈ t.fields, f.plainName ≠ "new") ∧
        ∀ f ∈ t.fields, ∀ g ∈ t.fields, f.plainName ≠ "set_" ++ g.plainName) ∧
    ((Code.Method.identifiers (Code.mapperMethods t)).Nodup ↔
      ((selfJoined ["boss", "deputy"]).joins.map fun j => Code.plainName j.label).Nodup ∧
        (∀ j ∈ (selfJoined ["boss", "deputy"]).joins, Code.plainName j.label ≠ "found_rows") ∧
        ∀ f, t.primaryFields = [f] → Code.plainName f.plainName ≠ "keys") := by
  have shown : ((build (selfJoined ["boss", "deputy"]) [keyColumn]).toOption.map fun t =>
      t.fields.map (·.name)) = some ["id"] := by decide
  obtain ⟨t, built, -⟩ := exists_build_of_names shown
  exact ⟨t, built, nodup_methods_iff built⟩

/-- A getter has the name of the method that makes an entity, and joins whose labels differ in case have the
same methods. -/
theorem not_nodup_methods :
    (∃ t, build (selfJoined []) [keyColumn, { name := "new", type := "int" }] = .ok t ∧
      ¬ (Code.Method.identifiers (Code.entityMethods t)).Nodup) ∧
    ∃ t, build (selfJoined ["Boss", "boss"]) [keyColumn] = .ok t ∧
      ¬ (Code.Method.identifiers (Code.mapperMethods t)).Nodup := by
  constructor
  · have shown : ((build (selfJoined []) [keyColumn, { name := "new", type := "int" }]).toOption.map fun t =>
        t.fields.map (·.name)) = some ["id", "new"] := by decide
    obtain ⟨t, built, names⟩ := exists_build_of_names shown
    have held : "new" ∈ t.fields.map (·.name) := by
      rw [names]
      decide
    obtain ⟨f, member, named⟩ := List.mem_map.mp held
    refine ⟨t, built, fun apart => ?_⟩
    rw [Code.identifiers_entityMethods, List.nodup_cons, List.mem_flatMap] at apart
    refine apart.1 ⟨f, member, ?_⟩
    rw [named]
    exact List.mem_cons_self ..
  · have shown : ((build (selfJoined ["Boss", "boss"]) [keyColumn]).toOption.map fun t =>
        t.fields.map (·.name)) = some ["id"] := by decide
    obtain ⟨t, built, -⟩ := exists_build_of_names shown
    refine ⟨t, built, fun apart => ?_⟩
    rw [Code.nodup_mapperMethods_iff, (build_eq_ok.mp built).1] at apart
    exact absurd apart.1 (by decide)

end TableMapper.CodeTable
