import TableMapper.Config.Resolution
import TableMapper.Pattern.Native
import TableMapper.Proofs.KeyMap
import TableMapper.Proofs.Outcome

/-! # Linked configurations

All configurations of a file are checked, and then the joins of every model are looked up among the models
that were built, as they were before any join was linked. Each pass is described by what it makes of a list
that it succeeds on: the entries that build, the joins that have a target, the models with their links.
-/

namespace TableMapper

/-! ## Results with warnings -/

namespace Warned

variable {α β : Type u}

theorem result_bind_eq_ok {w : Warned α} {next : α → Warned β} {b : β} :
    (w >>= next).result = .ok b ↔ ∃ a, w.result = .ok a ∧ (next a).result = .ok b := by
  change (w.bind next).result = _ ↔ _
  unfold Warned.bind
  cases w.result <;> simp

theorem result_pure_eq_ok {a b : α} : (pure a : Warned α).result = .ok b ↔ b = a := by
  simp [pure, eq_comm]

end Warned

/-! ## Declared joins -/

namespace TableModel

theorem labels_of_buildJoins {config table : String} {entries : List (String × JoinEntry)}
    {joins : List DeclaredJoin} (built : buildJoins config table entries = .ok joins) :
    joins.map (·.label) = entries.map (·.1) := by
  induction entries generalizing joins with
  | nil => cases built; rfl
  | cons e entries ih =>
      obtain ⟨join, made, built⟩ := exists_of_bind built
      obtain ⟨rest, others, built⟩ := exists_of_bind built
      cases built
      -- the last of the parts of a join is the join itself, with the alias it was written under
      iterate 5 obtain ⟨_, -, made⟩ := exists_of_bind made
      cases made
      simp [ih others]

/-- A model goes by the name of its configuration, and declares its joins in the order of their aliases. -/
theorem of_build [PatternEngine] {name : String} {entry : ConfigEntry} {m : TableModel}
    (built : TableModel.build name entry = .ok m) :
    m.name = name ∧ m.declaredJoins.map (·.label) = entry.joins.keys := by
  iterate 11 obtain ⟨_, -, built⟩ := exists_of_bind built
  obtain ⟨joins, declared, built⟩ := exists_of_bind built
  dsimp only at built
  split at built
  · cases built
  · cases built
    exact ⟨rfl, labels_of_buildJoins declared⟩

end TableModel

namespace Resolution

open Warned (result_bind_eq_ok result_pure_eq_ok)

/-! ## Building -/

section Building

variable [PatternEngine]

/-- The model of an entry, if it has no fault. -/
def built? (e : String × ConfigEntry) : Option (String × TableModel) :=
  match TableModel.build e.1 e.2 with
  | .ok model => some (e.1, model)
  | .error _ => none

theorem built?_eq_some_iff {e : String × ConfigEntry} {m : String × TableModel} :
    built? e = some m ↔ e.1 = m.1 ∧ TableModel.build e.1 e.2 = .ok m.2 := by
  obtain ⟨name, model⟩ := m
  unfold built?
  cases TableModel.build e.1 e.2 <;> simp

/-- Building succeeds when no configuration that is needed has a fault, and makes the models of those that
have none. -/
theorem result_buildAll_eq_ok {needed : Option (List String)} {entries : List (String × ConfigEntry)}
    {models : List (String × TableModel)} :
    (buildAll needed entries).result = .ok models ↔
      (∀ e ∈ entries, needed.all (·.contains e.1) = true → (built? e).isSome) ∧
        models = entries.filterMap built? := by
  induction entries generalizing models with
  | nil => simp [buildAll, result_pure_eq_ok]
  | cons e entries ih =>
      obtain ⟨name, entry⟩ := e
      unfold buildAll
      cases made : TableModel.build name entry with
      | ok model =>
          have some : built? (name, entry) = some (name, model) := by simp [built?, made]
          simp only [result_bind_eq_ok, result_pure_eq_ok, ih, List.forall_mem_cons, some, Option.isSome_some,
            implies_true, true_and, List.filterMap_cons]
          grind
      | error fault =>
          have none : built? (name, entry) = none := by simp [built?, made]
          simp only [List.forall_mem_cons, none, Option.isSome_none, List.filterMap_cons]
          by_cases need : needed.all (·.contains name) = true
          · simp only [need, if_true]
            simp
          · simp only [need, if_false, Bool.false_eq_true, false_implies, true_and, result_bind_eq_ok, ih]
            simp

end Building

/-! ## Linking -/

/-- A join with the model of its target, if there is one. -/
def linked? (base : KeyMap TableModel) (join : DeclaredJoin) : Option LinkedJoin :=
  (base.get? join.target).map fun model => { toDeclaredJoin := join, model }

/-- Linking succeeds when a missing target is no fault or there is none, and links the joins that have one. -/
theorem result_linkJoins_eq_ok {policy : DanglingPolicy} {base : KeyMap TableModel} {config : String}
    {joins : List DeclaredJoin} {linked : List LinkedJoin} :
    (linkJoins policy base config joins).result = .ok linked ↔
      (policy = .fail → ∀ j ∈ joins, base.contains j.target = true) ∧
        linked = joins.filterMap (linked? base) := by
  induction joins generalizing linked with
  | nil => simp [linkJoins, result_pure_eq_ok]
  | cons join joins ih =>
      unfold linkJoins
      cases found : base.get? join.target with
      | some model =>
          have some : linked? base join = some { toDeclaredJoin := join, model } := by simp [linked?, found]
          have held : base.contains join.target = true := by simp [KeyMap.contains, found]
          simp only [result_bind_eq_ok, result_pure_eq_ok, ih, List.forall_mem_cons, held, true_and,
            List.filterMap_cons, some]
          grind
      | none =>
          have none : linked? base join = none := by simp [linked?, found]
          have absent : base.contains join.target = false := by simp [KeyMap.contains, found]
          simp only [result_bind_eq_ok, List.forall_mem_cons, absent, List.filterMap_cons, none, ih]
          cases policy <;> simp [dangling, result_pure_eq_ok]

/-- A model with the joins that have a target, or without any if it is not the one asked for. -/
def linkModel (base : KeyMap TableModel) (filter : Option String) (m : String × TableModel) :
    String × LinkedModel :=
  (m.1, { toTableModel := m.2
          joins := if filter.all (· == m.1) then m.2.declaredJoins.filterMap (linked? base) else [] })

theorem result_linkAll_eq_ok {policy : DanglingPolicy} {base : KeyMap TableModel} {filter : Option String}
    {models : List (String × TableModel)} {linked : List (String × LinkedModel)} :
    (linkAll policy base filter models).result = .ok linked ↔
      (policy = .fail → ∀ m ∈ models, filter.all (· == m.1) = true →
        ∀ j ∈ m.2.declaredJoins, base.contains j.target = true) ∧
        linked = models.map (linkModel base filter) := by
  induction models generalizing linked with
  | nil => simp [linkAll, result_pure_eq_ok]
  | cons m models ih =>
      obtain ⟨name, model⟩ := m
      unfold linkAll
      by_cases asked : filter.all (· == name) = true
      · simp only [asked, if_true, result_bind_eq_ok, result_pure_eq_ok, result_linkJoins_eq_ok, ih,
          List.forall_mem_cons, List.map_cons, linkModel]
        grind
      · simp only [asked, if_false, Bool.false_eq_true, result_bind_eq_ok, result_pure_eq_ok, ih,
          List.forall_mem_cons, List.map_cons, linkModel]
        grind

/-- Linking keeps the joins whose targets are there. -/
theorem toDeclaredJoin_filterMap_linked? (base : KeyMap TableModel) (joins : List DeclaredJoin) :
    (joins.filterMap (linked? base)).map (·.toDeclaredJoin) = joins.filter (base.contains ·.target) := by
  induction joins with
  | nil => rfl
  | cons join joins ih =>
      simp only [KeyMap.contains] at ih ⊢
      cases found : base.get? join.target <;> simp [linked?, found, ih]

theorem keys_map_linkModel {base : KeyMap TableModel} {filter : Option String}
    {models : List (String × TableModel)} :
    (models.map (linkModel base filter)).map (·.1) = models.map (·.1) := by
  simp [linkModel, Function.comp_def]

/-! ## Resolving -/

section Resolving

variable [PatternEngine]

/-- The configurations that build, with their models. -/
def builtModels (entries : KeyMap ConfigEntry) : List (String × TableModel) := entries.toList.filterMap built?

theorem keys_filterMap_built?_sublist (l : List (String × ConfigEntry)) :
    ((l.filterMap built?).map (·.1)).Sublist (l.map (·.1)) := by
  induction l with
  | nil => exact .slnil
  | cons e l ih =>
      cases made : built? e with
      | none => simpa [List.filterMap_cons, made] using ih.cons e.1
      | some m =>
          have named := (built?_eq_some_iff.mp made).1
          simpa [List.filterMap_cons, made, ← named] using ih.cons_cons e.1

/-- The models that build stand in the order of their names. -/
theorem ordered_builtModels (entries : KeyMap ConfigEntry) :
    ((builtModels entries).map (·.1)).Pairwise (· < ·) :=
  entries.ordered.sublist (keys_filterMap_built?_sublist _)

theorem mem_builtModels {entries : KeyMap ConfigEntry} {name : String} {model : TableModel} :
    (name, model) ∈ builtModels entries ↔
      ∃ entry, entries.get? name = some entry ∧ TableModel.build name entry = .ok model := by
  simp only [builtModels, List.mem_filterMap, built?_eq_some_iff, KeyMap.get?_eq_some_iff, Prod.exists]
  constructor
  · rintro ⟨_, entry, member, rfl, built⟩
    exact ⟨entry, member, built⟩
  · rintro ⟨entry, member, built⟩
    exact ⟨name, entry, member, rfl, built⟩

theorem get?_base {entries : KeyMap ConfigEntry} {name : String} {model : TableModel} :
    (KeyMap.ofList (builtModels entries)).get? name = some model ↔
      ∃ entry, entries.get? name = some entry ∧ TableModel.build name entry = .ok model := by
  rw [KeyMap.get?_eq_some_iff, KeyMap.toList_ofList (ordered_builtModels entries), mem_builtModels]

/-- The resolution that is the result of success. -/
def linked (root filter : Option String) (entries : KeyMap ConfigEntry) : Resolution :=
  let base := .ofList (builtModels entries)
  { models := .ofList ((builtModels entries).map (linkModel base filter)), base, root }

theorem toList_models_linked {root filter : Option String} {entries : KeyMap ConfigEntry} :
    (linked root filter entries).models.toList =
      (builtModels entries).map (linkModel (.ofList (builtModels entries)) filter) :=
  KeyMap.toList_ofList (by rw [keys_map_linkModel]; exact ordered_builtModels entries)

theorem result_resolve_eq_ok {policy : DanglingPolicy} {root filter : Option String}
    {entries : KeyMap ConfigEntry} {needed : Option (List String)} {r : Resolution} :
    (resolveWide.resolve policy root filter entries needed).result = .ok r ↔
      (∀ e ∈ entries.toList, needed.all (·.contains e.1) = true → (built? e).isSome) ∧
        (policy = .fail → ∀ m ∈ builtModels entries, filter.all (· == m.1) = true →
          ∀ j ∈ m.2.declaredJoins, (KeyMap.ofList (builtModels entries)).contains j.target = true) ∧
        r = linked root filter entries := by
  simp only [resolveWide.resolve, result_bind_eq_ok, result_pure_eq_ok, result_buildAll_eq_ok,
    result_linkAll_eq_ok]
  constructor
  · rintro ⟨_, ⟨builds, rfl⟩, _, ⟨dangles, rfl⟩, rfl⟩
    exact ⟨builds, dangles, rfl⟩
  · rintro ⟨builds, dangles, rfl⟩
    exact ⟨_, ⟨builds, rfl⟩, _, ⟨dangles, rfl⟩, rfl⟩

/-- Whatever is asked for, what comes of it is the part of the linked models that is kept. -/
theorem of_result_resolve {policy : DanglingPolicy} {root filter : Option String}
    {entries : KeyMap ConfigEntry} {r : Resolution}
    (resolved : (resolve policy root filter entries).result = .ok r) :
    r = (linked root filter entries).keepOnly filter := by
  obtain ⟨w, wide, kept⟩ := result_bind_eq_ok.mp resolved
  cases result_pure_eq_ok.mp kept
  cases filter with
  | none => rw [(result_resolve_eq_ok.mp wide).2.2]
  | some name =>
      simp only [resolveWide] at wide
      split at wide
      · rw [(result_resolve_eq_ok.mp wide).2.2]
      · cases wide

/-- Every model of a resolution is made of the entry under its name. -/
theorem build_of_mem {policy : DanglingPolicy} {root filter : Option String} {entries : KeyMap ConfigEntry}
    {r : Resolution} {name : String} {model : LinkedModel}
    (resolved : (resolve policy root filter entries).result = .ok r)
    (member : (name, model) ∈ r.models.toList) :
    ∃ entry, entries.get? name = some entry ∧ TableModel.build name entry = .ok model.toTableModel := by
  have wide : (name, model) ∈ (linked root filter entries).models.toList := by
    cases of_result_resolve resolved
    cases filter with
    | none => exact member
    | some _ => exact (List.mem_filter.mp member).1
  rw [toList_models_linked] at wide
  obtain ⟨⟨_, built⟩, isBuilt, same⟩ := List.mem_map.mp wide
  cases same
  exact mem_builtModels.mp isBuilt

/-- The models of a resolution stand under their names. -/
theorem names_eq_keys {policy : DanglingPolicy} {root filter : Option String} {entries : KeyMap ConfigEntry}
    {r : Resolution} (resolved : (resolve policy root filter entries).result = .ok r) :
    r.models.values.map (·.name) = r.models.keys := by
  simp only [KeyMap.values, KeyMap.keys, List.map_map]
  apply List.map_congr_left
  rintro ⟨name, model⟩ member
  obtain ⟨entry, -, built⟩ := build_of_mem resolved member
  exact (TableModel.of_build built).1

/-- What a model of a resolution is: the one that its entry makes, with those of its declared joins whose
targets have entries, each with the model that the entry of its target makes. -/
structure LinkedFrom (entries : KeyMap ConfigEntry) (name : String) (model : LinkedModel) : Prop where
  named : model.name = name
  built : ∃ entry, entries.get? name = some entry ∧ TableModel.build name entry = .ok model.toTableModel ∧
    model.declaredJoins.map (·.label) = entry.joins.keys
  kept : model.joins.map (·.toDeclaredJoin) = model.declaredJoins.filter (entries.contains ·.target)
  inOrder : (model.joins.map (·.label)).Pairwise (· < ·)
  targets : ∀ j ∈ model.joins, ∃ entry, entries.get? j.target = some entry ∧
    TableModel.build j.target entry = .ok j.model

theorem linkedFrom_of_mem {entries : KeyMap ConfigEntry} {name : String} {model : LinkedModel}
    (complete : ∀ k, (KeyMap.ofList (builtModels entries)).contains k = entries.contains k)
    (member : (name, model) ∈ (builtModels entries).map (linkModel (.ofList (builtModels entries)) none)) :
    LinkedFrom entries name model := by
  obtain ⟨⟨_, built⟩, isBuilt, same⟩ := List.mem_map.mp member
  simp only [linkModel, Option.all_none, if_true, Prod.mk.injEq] at same
  obtain ⟨rfl, rfl⟩ := same
  obtain ⟨entry, found, builds⟩ := mem_builtModels.mp isBuilt
  obtain ⟨named, labels⟩ := TableModel.of_build builds
  have kept := toDeclaredJoin_filterMap_linked? (.ofList (builtModels entries)) built.declaredJoins
  refine ⟨named, ⟨entry, found, builds, labels⟩, by simpa only [complete] using kept, ?_, ?_⟩
  · -- the labels of all declared joins are in order, and the joins that are kept are some of them
    have some := (List.filter_sublist (l := built.declaredJoins)
      (p := fun j => (KeyMap.ofList (builtModels entries)).contains j.target)).map (·.label)
    rw [← kept, List.map_map, labels] at some
    exact entry.joins.ordered.sublist some
  · intro join linked
    obtain ⟨declared, -, made⟩ := List.mem_filterMap.mp linked
    obtain ⟨target, held, rfl⟩ := Option.map_eq_some_iff.mp made
    exact get?_base.mp held

/-- Where every entry builds, the models are under the keys of the entries. -/
theorem keys_builtModels {entries : KeyMap ConfigEntry}
    (builds : ∀ e ∈ entries.toList, (built? e).isSome) : (builtModels entries).map (·.1) = entries.keys := by
  apply (keys_filterMap_built?_sublist _).eq_of_length
  simpa using List.filterMap_length_eq_length.mpr builds

theorem contains_base {entries : KeyMap ConfigEntry} (builds : ∀ e ∈ entries.toList, (built? e).isSome)
    (k : String) : (KeyMap.ofList (builtModels entries)).contains k = entries.contains k := by
  have keys : (KeyMap.ofList (builtModels entries)).keys = entries.keys := by
    rw [KeyMap.keys, ← KeyMap.toList, KeyMap.toList_ofList (ordered_builtModels entries),
      keys_builtModels builds]
  rw [Bool.eq_iff_iff, KeyMap.contains_iff, KeyMap.contains_iff, keys]

theorem built?_isSome_iff {e : String × ConfigEntry} :
    (built? e).isSome ↔ ∃ m, TableModel.build e.1 e.2 = .ok m := by
  unfold built?
  cases TableModel.build e.1 e.2 <;> simp

/-- Without a filter, all configurations have to build. -/
theorem result_resolve_all_eq_ok {policy : DanglingPolicy} {root : Option String}
    {entries : KeyMap ConfigEntry} {r : Resolution} :
    (resolve policy root none entries).result = .ok r ↔
      (∀ e ∈ entries.toList, (built? e).isSome) ∧
        (policy = .fail → ∀ m ∈ builtModels entries, ∀ j ∈ m.2.declaredJoins, j.target ∈ entries.keys) ∧
        r = linked root none entries := by
  have wide : (resolve policy root none entries).result = .ok r ↔
      (resolveWide.resolve policy root none entries none).result = .ok r := by
    simp [resolve, resolveWide, keepOnly, result_bind_eq_ok, result_pure_eq_ok]
  simp only [wide, result_resolve_eq_ok, Option.all_none, forall_const]
  apply and_congr_right
  intro builds
  simp only [contains_base builds, KeyMap.contains_iff]

/-- Resolving all configurations succeeds exactly when every one builds and, where a missing target is a
fault, every declared join has its target among them. The result has one model for each configuration, and
its joins are the declared ones with a target, each leading to the model that the configuration of its target
makes by itself, whichever other joins lead there or back. -/
theorem resolve_linked {policy : DanglingPolicy} {root : Option String} {entries : KeyMap ConfigEntry} :
    ((∃ r, (resolve policy root none entries).result = .ok r) ↔
      (∀ e ∈ entries.toList, ∃ m, TableModel.build e.1 e.2 = .ok m) ∧
      (policy = .fail → ∀ e ∈ entries.toList, ∀ m, TableModel.build e.1 e.2 = .ok m →
        ∀ j ∈ m.declaredJoins, j.target ∈ entries.keys)) ∧
    ∀ r, (resolve policy root none entries).result = .ok r →
      r.models.keys = entries.keys ∧
      ∀ name model, (name, model) ∈ r.models.toList → LinkedFrom entries name model := by
  constructor
  · have same : (∀ m ∈ builtModels entries, ∀ j ∈ m.2.declaredJoins, j.target ∈ entries.keys) ↔
        ∀ e ∈ entries.toList, ∀ m, TableModel.build e.1 e.2 = .ok m →
          ∀ j ∈ m.declaredJoins, j.target ∈ entries.keys := by
      simp only [Prod.forall, mem_builtModels, KeyMap.get?_eq_some_iff]
      constructor
      · intro targets name entry member m builds
        exact targets name m ⟨entry, member, builds⟩
      · rintro targets name m ⟨entry, member, builds⟩
        exact targets name entry member m builds
    simp only [result_resolve_all_eq_ok, built?_isSome_iff, same]
    grind
  · intro r resolved
    obtain ⟨builds, -, rfl⟩ := result_resolve_all_eq_ok.mp resolved
    have models : (linked root none entries).models.toList = _ :=
      KeyMap.toList_ofList (by rw [keys_map_linkModel]; exact ordered_builtModels entries)
    refine ⟨?_, fun name model member => linkedFrom_of_mem (contains_base builds) (models ▸ member)⟩
    calc
      (linked root none entries).models.keys = _ := congrArg (List.map Prod.fst) models
      _ = (builtModels entries).map (·.1) := keys_map_linkModel
      _ = entries.keys := keys_builtModels builds

end Resolving

/-- A configuration with joins to the given targets. -/
def sample (joins : List (String × String)) : ConfigEntry :=
  { author := "a", copyright := "c", className := "T", table := "t", cachePrefix := "t"
    namespaces := { entity := "e", mapper := "m" }, paths := { entity := "e", mapper := "m" }
    joins := .ofList <| joins.map fun (label, target) =>
      (label, { config := target, localField := "x", remoteField := "y" }) }

-- `a` joins itself, `b`, which joins it back, and a table that there is none of
open scoped Pattern in
example : ((resolve .ignore none none <| .ofList
      [("a", sample [("self", "a"), ("far", "b"), ("gone", "c")]), ("b", sample [("back", "a")])]).result.toOption.map
    fun r => r.models.toList.map fun (name, m) => (name, m.joins.map fun j => (j.label, j.model.name))) =
    some [("a", [("far", "b"), ("self", "a")]), ("b", [("back", "a")])] := by
  decide +kernel

end Resolution

end TableMapper
