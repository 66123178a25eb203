import TableMapper.Proofs.Code.Rendering
import TableMapper.Proofs.Config.Filtering

/-! # Code for one model out of many

Where all configurations of a file come to code, the one that is asked for comes to the same code by itself.
The run over all of them has described other tables by the time it comes to that model, and has linked the
joins of every model. Main statement: `plan_asked`.
-/

namespace TableMapper

open Resolution

namespace Generation

variable {schema : Schema} {options : EmitOptions} {r : Resolution}

/-- Where files go depends on a resolution by its root alone. -/
theorem filesOf_congr {r' : Resolution} (same : r.root = r'.root) (t : CodeTable) :
    filesOf r options t = filesOf r' options t := by
  have placed : fileOf r options t = fileOf r' options t := by
    funext a
    simp only [fileOf, artifactDirectory, same]
  rw [filesOf, placed, filesOf]

/-- What a run over all models renders when it comes to the one with a name: `before` and `after` stand for
what it renders for the models before and behind that one. -/
structure RendersFor (schema : Schema) (r : Resolution) (options : EmitOptions) (name : String)
    (before chosen after : List GeneratedFile) : Prop where
  exists_steps : ∃ m earlier later d d' d'',
    r.models.toList = earlier ++ (name, m) :: later ∧
    (planAll schema r options (earlier.map (·.2))).run.run .none = (.ok before, d) ∧
    (planModel schema r options m).run.run d = (.ok chosen, d') ∧
    (planAll schema r options (later.map (·.2))).run.run d' = (.ok after, d'')

/-- A run that succeeds renders files for every model in turn, from what it has been told until then. -/
theorem exists_rendersFor {files : List GeneratedFile} {name : String} {m : LinkedModel}
    (planned : (plan schema r options).1 = .ok files) (member : (name, m) ∈ r.models.toList) :
    ∃ t before after, tableOf schema m = .ok t ∧
      RendersFor schema r options name before (filesOf r options t) after ∧
      files = before ++ filesOf r options t ++ after := by
  obtain ⟨earlier, later, split⟩ := List.append_of_mem member
  have values : r.models.values = earlier.map (·.2) ++ m :: later.map (·.2) := by
    rw [KeyMap.values, ← KeyMap.toList, split, List.map_append, List.map_cons]
  rw [plan_eq, values] at planned
  obtain ⟨tables, made, rfl⟩ := exists_of_map planned
  rw [List.mapM_append, List.mapM_cons] at made
  obtain ⟨first, madeFirst, made⟩ := exists_of_bind made
  obtain ⟨others, madeOthers, made⟩ := exists_of_bind made
  cases made
  obtain ⟨t, own, madeOthers⟩ := exists_of_bind madeOthers
  obtain ⟨last, madeLast, madeOthers⟩ := exists_of_bind madeOthers
  cases madeOthers
  refine ⟨t, first.flatMap (filesOf r options), last.flatMap (filesOf r options), own, ⟨?_⟩, by simp⟩
  -- every part of the run finds what has been described faithful, and leaves it so
  obtain ⟨d, ran, faithful⟩ := yields_planAll r options (earlier.map (·.2)) .none
    (Described.faithful_none schema)
  obtain ⟨d', ran', faithful'⟩ := yields_planModel r options m d faithful
  obtain ⟨d'', ran'', -⟩ := yields_planAll r options (later.map (·.2)) d' faithful'
  rw [madeFirst] at ran
  rw [own] at ran'
  rw [madeLast] at ran''
  exact ⟨m, earlier, later, d, d', d'', split, ran, ran', ran''⟩

/-- Where a run over all configurations succeeds, so does one over any of them alone, and it comes to the files
that the run over all renders for that one. -/
theorem plan_asked [PatternEngine] {policy : DanglingPolicy} {root : Option String} {entries : KeyMap ConfigEntry}
    {name : String} {all : Resolution} {files : List GeneratedFile} (held : entries.contains name = true)
    (resolved : (resolve policy root none entries).result = .ok all)
    (planned : (plan schema all options).1 = .ok files) :
    ∃ one before chosen after,
      (resolve policy root (some name) entries).result = .ok one ∧
      (plan schema one options).1 = .ok chosen ∧
      RendersFor schema all options name before chosen after ∧
      files = before ++ chosen ++ after := by
  obtain ⟨entry, found⟩ := Option.isSome_iff_exists.mp held
  obtain ⟨builds, dangles, rfl⟩ := result_resolve_all_eq_ok.mp resolved
  have complete := contains_base builds
  have makes : ∀ other e, entries.get? other = some e → ∃ m, TableModel.build other e = .ok m :=
    fun other e there => built?_isSome_iff.mp (builds (other, e) (KeyMap.get?_eq_some_iff.mp there))
  obtain ⟨model, built⟩ := makes name entry found
  have asked : (resolve policy root (some name) entries).result =
      .ok ((linked root (some name) entries).narrow name) := by
    rw [result_resolve_asked_eq_ok found]
    refine ⟨fun other _ => makes other, ?_, rfl⟩
    intro strict m made join declared
    rw [complete, KeyMap.contains_iff]
    exact dangles strict (name, m) (mem_builtModels.mpr ⟨entry, found, made⟩) join declared
  -- among all models there is the one that is made of the entry alone
  have member : (name, (linkModel (.ofList (builtModels entries)) none (name, model)).2) ∈
      (linked root none entries).models.toList := by
    rw [toList_models_linked]
    exact List.mem_map_of_mem (mem_builtModels.mpr ⟨entry, found, built⟩)
  obtain ⟨t, before, after, own, renders, rfl⟩ := exists_rendersFor planned member
  refine ⟨_, before, _, after, asked, ?_, renders, rfl⟩
  have values : ((linked root (some name) entries).narrow name).models.values =
      [(linkModel (.ofList (builtModels entries)) none (name, model)).2] :=
    congrArg (List.map Prod.snd) (models_narrow_linked found built)
  have tables : [(linkModel (.ofList (builtModels entries)) none (name, model)).2].mapM (tableOf schema) =
      .ok [t] := mapM_eq_ok.mpr (.cons own .nil)
  have places : ((linked root (some name) entries).narrow name).root = (linked root none entries).root := rfl
  rw [plan_eq, values, tables, ← filesOf_congr places t, ← List.flatMap_singleton (filesOf _ options) t]
  rfl

open scoped Pattern in
theorem plan_asked_circle : ∃ all files, circle.contains "b" = true ∧
    (resolve .fail (some "out") none circle).result = .ok all ∧
    (plan twoTables all {}).1 = .ok files ∧
    ∃ one before chosen after,
      (resolve .fail (some "out") (some "b") circle).result = .ok one ∧
      (plan twoTables one {}).1 = .ok chosen ∧
      RendersFor twoTables all {} "b" before chosen after ∧
      files = before ++ chosen ++ after := by
  have held : circle.contains "b" = true := by decide +kernel
  obtain ⟨all, files, resolved, planned⟩ := exists_plan_circle
  exact ⟨all, files, held, resolved, planned, plan_asked held resolved planned⟩

end Generation

end TableMapper
