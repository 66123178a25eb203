import Mathlib.Data.List.Basic
import TableMapper.Proofs.Config.Linking

/-! # One configuration asked for

If one configuration is asked for, the others are passed over where they have faults, unless a join of that
one writes their name. The names are taken as they are written, while joins lead to the names without blanks
around them. Main statement: `resolve_asked_iff` says when asking for one configuration succeeds, and that
nothing but the targets of its joins matters to it exactly when the written names are those of the targets.
-/

namespace TableMapper

/-! ## Names that joins write -/

namespace ConfigEntry

/-- The names of configurations in joins, as written. -/
def joinNames (entry : ConfigEntry) : List String := entry.joins.values.filterMap (·.config)

end ConfigEntry

theorem of_required {config key target : String} {value : Option String}
    (present : required config key value = .ok target) : ∃ s, value = some s ∧ Text.trim s = target := by
  unfold required at present
  cases value with
  | none => cases present
  | some s =>
      refine ⟨s, rfl, ?_⟩
      cases held : written? (some s) with
      | none => simp [held] at present
      | some s' =>
          simp only [held, Except.ok.injEq] at present
          subst present
          simp only [written?, Option.map_some, Option.filter_eq_some_iff, Option.some.injEq] at held
          exact held.1

namespace TableModel

theorem targets_of_buildJoins {config table : String} {entries : List (String × JoinEntry)}
    {joins : List DeclaredJoin} (built : buildJoins config table entries = .ok joins) :
    joins.map (·.target) = ((entries.map (·.2)).filterMap (·.config)).map Text.trim := by
  induction entries generalizing joins with
  | nil => cases built; rfl
  | cons e entries ih =>
      obtain ⟨join, made, built⟩ := exists_of_bind built
      obtain ⟨rest, others, built⟩ := exists_of_bind built
      cases built
      obtain ⟨target, present, made⟩ := exists_of_bind made
      obtain ⟨s, written, rfl⟩ := of_required present
      iterate 4 obtain ⟨_, -, made⟩ := exists_of_bind made
      cases made
      simp [ih others, written]

/-- Joins lead to the names that they write, without the blanks around them. -/
theorem targets_of_build [PatternEngine] {name : String} {entry : ConfigEntry} {m : TableModel}
    (built : TableModel.build name entry = .ok m) :
    m.declaredJoins.map (·.target) = entry.joinNames.map Text.trim := by
  iterate 11 obtain ⟨_, -, built⟩ := exists_of_bind built
  obtain ⟨joins, declared, built⟩ := exists_of_bind built
  dsimp only at built
  split at built
  · cases built
  · cases built
    exact targets_of_buildJoins declared

end TableModel

namespace Resolution

open Warned (result_bind_eq_ok result_pure_eq_ok)

variable {policy : DanglingPolicy} {root : Option String} {entries entries' : KeyMap ConfigEntry}
  {name : String} {entry : ConfigEntry}

/-! ## What is made of the one asked for -/

theorem needed_eq (found : entries.get? name = some entry) : needed entries name = name :: entry.joinNames := by
  simp [needed, found, ConfigEntry.joinNames]

section Asked

variable [PatternEngine]

theorem result_resolve_asked_eq_ok {r : Resolution} (found : entries.get? name = some entry) :
    (resolve policy root (some name) entries).result = .ok r ↔
      (∀ other ∈ name :: entry.joinNames, ∀ e, entries.get? other = some e →
        ∃ m, TableModel.build other e = .ok m) ∧
      (policy = .fail → ∀ m, TableModel.build name entry = .ok m →
        ∀ j ∈ m.declaredJoins, (KeyMap.ofList (builtModels entries)).contains j.target = true) ∧
      r = (linked root (some name) entries).narrow name := by
  have held : entries.contains name = true := by simp [KeyMap.contains, found]
  have wide : (resolve policy root (some name) entries).result = .ok r ↔
      ∃ w, (resolveWide.resolve policy root (some name) entries (some (needed entries name))).result = .ok w ∧
        r = w.narrow name := by
    simp [resolve, resolveWide, held, keepOnly, result_bind_eq_ok, result_pure_eq_ok]
  have needs : (∀ e ∈ entries.toList, (some (needed entries name)).all (·.contains e.1) = true →
        (built? e).isSome) ↔
      ∀ other ∈ name :: entry.joinNames, ∀ e, entries.get? other = some e →
        ∃ m, TableModel.build other e = .ok m := by
    simp only [needed_eq found, built?_isSome_iff, Option.all_some, List.contains_iff_mem, Prod.forall,
      KeyMap.get?_eq_some_iff]
    grind
  have dangles : (∀ m ∈ builtModels entries, (some name).all (· == m.1) = true →
        ∀ j ∈ m.2.declaredJoins, (KeyMap.ofList (builtModels entries)).contains j.target = true) ↔
      ∀ m, TableModel.build name entry = .ok m →
        ∀ j ∈ m.declaredJoins, (KeyMap.ofList (builtModels entries)).contains j.target = true := by
    simp only [Prod.forall, mem_builtModels, Option.all_some, beq_iff_eq]
    grind
  simp only [wide, result_resolve_eq_ok, needs, dangles]
  grind

/-- The one model that is kept is the one asked for, with the joins whose targets build. -/
theorem models_narrow_linked {model : TableModel} (found : entries.get? name = some entry)
    (built : TableModel.build name entry = .ok model) :
    ((linked root (some name) entries).narrow name).models.toList =
      [(name, (linkModel (.ofList (builtModels entries)) none (name, model)).2)] := by
  apply KeyMap.toList_filterKeys_eq_singleton
  rw [KeyMap.get?_eq_some_iff, toList_models_linked, List.mem_map]
  exact ⟨(name, model), mem_builtModels.mpr ⟨entry, found, built⟩, by simp [linkModel]⟩

/-! ## What matters to the one asked for -/

/-- A configuration builds, and so does every one that its joins lead to. -/
def InOrder (entries : KeyMap ConfigEntry) (name : String) (entry : ConfigEntry) : Prop :=
  ∃ model, TableModel.build name entry = .ok model ∧
    ∀ join ∈ model.declaredJoins, ∀ e, entries.get? join.target = some e →
      ∃ m, TableModel.build join.target e = .ok m

/-- Two maps have the same under the targets of a configuration's joins. -/
def AgreeOnTargets (entries entries' : KeyMap ConfigEntry) (name : String) (entry : ConfigEntry) : Prop :=
  ∀ model, TableModel.build name entry = .ok model →
    ∀ join ∈ model.declaredJoins, entries.get? join.target = entries'.get? join.target

/-- Asking for a configuration succeeds when it and the targets of its joins are in order, and nothing else
matters to what comes of it. -/
structure DependsOnTargets (policy : DanglingPolicy) (root : Option String) (name : String)
    (entry : ConfigEntry) : Prop where
  succeeds : ∀ entries, entries.get? name = some entry →
    ((∃ r, (resolve policy root (some name) entries).result = .ok r) ↔ InOrder entries name entry)
  sameSuccess : ∀ entries entries', entries.get? name = some entry → entries'.get? name = some entry →
    AgreeOnTargets entries entries' name entry →
    ((∃ r, (resolve policy root (some name) entries).result = .ok r) ↔
      ∃ r, (resolve policy root (some name) entries').result = .ok r)
  sameModel : ∀ entries entries', entries.get? name = some entry → entries'.get? name = some entry →
    AgreeOnTargets entries entries' name entry →
    ∀ r r', (resolve policy root (some name) entries).result = .ok r →
      (resolve policy root (some name) entries').result = .ok r' → r.models.toList = r'.models.toList

theorem inOrder_congr (agree : AgreeOnTargets entries entries' name entry) :
    InOrder entries name entry ↔ InOrder entries' name entry := by
  unfold InOrder
  apply exists_congr
  intro model
  apply and_congr_right
  intro built
  apply forall₂_congr
  intro join declared
  rw [agree model built join declared]

/-- What a model is linked to depends on the targets of its joins. -/
theorem linkModel_congr {model : TableModel} (agree : AgreeOnTargets entries entries' name entry)
    (built : TableModel.build name entry = .ok model) :
    linkModel (.ofList (builtModels entries)) none (name, model) =
      linkModel (.ofList (builtModels entries')) none (name, model) := by
  have same : ∀ join ∈ model.declaredJoins, linked? (.ofList (builtModels entries)) join =
      linked? (.ofList (builtModels entries')) join := by
    intro join declared
    unfold linked?
    congr 1
    ext target
    rw [get?_base, get?_base, agree model built join declared]
  simp only [linkModel, Option.all_none, if_true, List.filterMap_congr same]

theorem sameModel_of_agree {r r' : Resolution} (found : entries.get? name = some entry)
    (found' : entries'.get? name = some entry) (agree : AgreeOnTargets entries entries' name entry)
    (resolved : (resolve policy root (some name) entries).result = .ok r)
    (resolved' : (resolve policy root (some name) entries').result = .ok r') :
    r.models.toList = r'.models.toList := by
  obtain ⟨builds, -, rfl⟩ := (result_resolve_asked_eq_ok found).mp resolved
  obtain ⟨-, -, rfl⟩ := (result_resolve_asked_eq_ok found').mp resolved'
  obtain ⟨model, built⟩ := builds name (List.mem_cons_self ..) entry found
  rw [models_narrow_linked found built, models_narrow_linked found' built, linkModel_congr agree built]

theorem exists_resolve_asked_iff (lenient : policy ≠ .fail) (found : entries.get? name = some entry) :
    (∃ r, (resolve policy root (some name) entries).result = .ok r) ↔
      ∀ other ∈ name :: entry.joinNames, ∀ e, entries.get? other = some e →
        ∃ m, TableModel.build other e = .ok m := by
  simp only [result_resolve_asked_eq_ok found]
  grind

/-- An entry without anything in it is refused. -/
theorem build_blank (name : String) (m : TableModel) : TableModel.build name {} ≠ .ok m := by
  intro built
  cases built

/-- A map with two entries, of which the second is refused. -/
def besideBlank (name : String) (entry : ConfigEntry) (other : String) : KeyMap ConfigEntry :=
  (KeyMap.empty.insert other {}).insert name entry

omit [PatternEngine] in
theorem get?_besideBlank (name : String) (entry : ConfigEntry) (other k : String) :
    (besideBlank name entry other).get? k =
      if k = name then some entry else if k = other then some {} else none := by
  simp only [besideBlank, KeyMap.get?_insert]
  rfl

/-- Of some names, all with an entry beside the blank one build unless the blank one is among them. -/
theorem builds_besideBlank {model : TableModel} {other : String} (differ : other ≠ name)
    (built : TableModel.build name entry = .ok model) (names : List String) :
    (∀ k ∈ names, ∀ e, (besideBlank name entry other).get? k = some e → ∃ m, TableModel.build k e = .ok m) ↔
      other ∉ names := by
  simp only [get?_besideBlank]
  constructor
  · intro builds written
    obtain ⟨m, made⟩ := builds other written {} (by simp [differ])
    exact build_blank _ m made
  · intro absent k written e found
    split at found
    · next same =>
      cases found
      exact ⟨model, same ▸ built⟩
    · split at found
      · next same => exact absurd (same ▸ written) absent
      · cases found

theorem inOrder_besideBlank {model : TableModel} {other : String} (differ : other ≠ name)
    (built : TableModel.build name entry = .ok model) :
    InOrder (besideBlank name entry other) name entry ↔ other ∉ model.declaredJoins.map (·.target) := by
  rw [← builds_besideBlank differ built, List.forall_mem_map]
  simp only [InOrder, built, Except.ok.injEq, exists_eq_left']

theorem exists_resolve_besideBlank {model : TableModel} {other : String} (lenient : policy ≠ .fail)
    (differ : other ≠ name) (built : TableModel.build name entry = .ok model) :
    (∃ r, (resolve policy root (some name) (besideBlank name entry other)).result = .ok r) ↔
      other ∉ entry.joinNames := by
  have found : (besideBlank name entry other).get? name = some entry := by simp [get?_besideBlank]
  rw [exists_resolve_asked_iff lenient found, builds_besideBlank differ built, List.mem_cons]
  simp only [differ, false_or]

/-- Where no missing target is a fault, asking for one configuration succeeds exactly when it builds and so
does every configuration whose name its joins write. What comes of it depends on the targets of its joins
alone if and only if, its own name apart, the names that are written are the targets. A name with blanks
around it is none. -/
theorem resolve_asked_iff (lenient : policy ≠ .fail) :
    (∀ entries, entries.get? name = some entry →
      ((∃ r, (resolve policy root (some name) entries).result = .ok r) ↔
        ∀ other ∈ name :: entry.joinNames, ∀ e, entries.get? other = some e →
          ∃ m, TableModel.build other e = .ok m)) ∧
    (DependsOnTargets policy root name entry ↔
      ∀ model, TableModel.build name entry = .ok model → ∀ other, other ≠ name →
        (other ∈ entry.joinNames ↔ other ∈ model.declaredJoins.map (·.target))) := by
  refine ⟨fun entries found => exists_resolve_asked_iff lenient found, ?_, ?_⟩
  · intro depends model built other differ
    have alike := depends.succeeds (besideBlank name entry other) (by simp [get?_besideBlank])
    rw [exists_resolve_besideBlank lenient differ built, inOrder_besideBlank differ built] at alike
    exact not_iff_not.mp alike
  · intro same
    have succeeds : ∀ entries, entries.get? name = some entry →
        ((∃ r, (resolve policy root (some name) entries).result = .ok r) ↔ InOrder entries name entry) := by
      intro entries found
      rw [exists_resolve_asked_iff lenient found, List.forall_mem_cons]
      constructor
      · rintro ⟨own, others⟩
        obtain ⟨model, built⟩ := own entry found
        refine ⟨model, built, fun join declared => ?_⟩
        by_cases itself : join.target = name
        · exact itself ▸ own
        · exact others _ ((same model built _ itself).mpr (List.mem_map_of_mem declared))
      · rintro ⟨model, built, targets⟩
        have own : ∀ e, entries.get? name = some e → ∃ m, TableModel.build name e = .ok m := by
          intro e found'
          cases found.symm.trans found'
          exact ⟨model, built⟩
        refine ⟨own, fun other written => ?_⟩
        by_cases itself : other = name
        · exact itself ▸ own
        · obtain ⟨join, declared, rfl⟩ := List.mem_map.mp ((same model built other itself).mp written)
          exact targets join declared
    refine ⟨succeeds, ?_, fun _ _ found found' agree _ _ => sameModel_of_agree found found' agree⟩
    intro entries entries' found found' agree
    rw [succeeds entries found, succeeds entries' found', inOrder_congr agree]

end Asked

open scoped Pattern in
/-- A join that writes its target plainly leads to it, also where it comes back to the one asked for. -/
theorem resolve_asked_mutual :
    DanglingPolicy.warn ≠ .fail ∧
      DependsOnTargets .warn (some "out") "a" (sample [("self", "a"), ("far", "b"), ("gone", "c")]) := by
  refine ⟨by decide, (resolve_asked_iff (by decide)).2.mpr ?_⟩
  intro model built other _
  rw [TableModel.targets_of_build built]
  have names : (sample [("self", "a"), ("far", "b"), ("gone", "c")]).joinNames = ["b", "c", "a"] := by
    decide +kernel
  rw [names]
  have trimmed : ["b", "c", "a"].map Text.trim = ["b", "c", "a"] := by decide +kernel
  rw [trimmed]

/-- A join whose target is written with blanks around it, and a target that does not build. -/
def spacedJoin : KeyMap ConfigEntry := besideBlank "user" (sample [("billing", " address ")]) "address"

open scoped Pattern in
/-- Asking for a table whose join leads to a configuration with a fault succeeds, and the join is lost. -/
theorem resolve_not_by_targets :
    spacedJoin.get? "user" = some (sample [("billing", " address ")]) ∧
      ((resolve .ignore none (some "user") spacedJoin).result.toOption.map fun r =>
        r.models.toList.map fun (name, m) => (name, m.declaredJoins.map (·.target), m.joins.map (·.label))) =
        some [("user", ["address"], [])] ∧
      ¬ InOrder spacedJoin "user" (sample [("billing", " address ")]) ∧
      ¬ DependsOnTargets .ignore none "user" (sample [("billing", " address ")]) := by
  have found : spacedJoin.get? "user" = some (sample [("billing", " address ")]) := rfl
  have differ : "address" ≠ "user" := by decide
  have disorder : ¬ InOrder spacedJoin "user" (sample [("billing", " address ")]) := by
    intro inOrder
    obtain ⟨m, built, -⟩ := id inOrder
    apply (inOrder_besideBlank differ built).mp inOrder
    rw [TableModel.targets_of_build built]
    decide +kernel
  refine ⟨found, by decide +kernel, disorder, fun depends => disorder ?_⟩
  apply (depends.succeeds spacedJoin found).mp
  have resolved : (resolve .ignore none (some "user") spacedJoin).result.toOption.isSome = true := by
    decide +kernel
  cases result : (resolve .ignore none (some "user") spacedJoin).result with
  | ok r => exact ⟨r, rfl⟩
  | error e => simp [result, Except.toOption] at resolved

end Resolution

end TableMapper
