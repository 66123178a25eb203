import Mathlib.Data.List.Nodup
import TableMapper.Proofs.Code.Stored
import TableMapper.Proofs.Text.Words

/-! # Files in one place

Whether the files of a run have different paths shows in the configurations: files have one path when they are
in directories of the same parts and have one name. The files of one model never have. Main statement:
`paths_nodup_iff`.
-/

namespace TableMapper

open FileTree (leadsTo)

/-! ## Names of files -/

theorem TableModel.isTypeName_of_build [PatternEngine] {name : String} {entry : ConfigEntry} {m : TableModel}
    (built : TableModel.build name entry = .ok m) : isTypeName m.className = true := by
  iterate 12 obtain ⟨_, -, built⟩ := exists_of_bind built
  dsimp only at built
  split at built
  · cases built
  · next typed =>
    cases built
    simpa using typed

theorem TableModel.isPlain_of_isTypeName {s : String} (typed : isTypeName s = true) :
    ∀ c ∈ s.toList, Text.Words.IsPlain c := by
  unfold isTypeName at typed
  cases cs : s.toList with
  | nil => simp
  | cons c cs' =>
      simp only [cs, Bool.and_eq_true, Bool.or_eq_true, beq_iff_eq, List.all_eq_true] at typed
      rw [List.forall_mem_cons]
      refine ⟨typed.1.imp_left fun letter => ?_, typed.2⟩
      rw [Char.isAlphanum, letter, Bool.true_or]

namespace Artifact

theorem ending_injective {a a' : Artifact} (same : a.ending = a'.ending) : a = a' := by
  revert same
  cases a <;> cases a' <;> decide

theorem length_ending (a : Artifact) : 3 ≤ a.ending.toList.length := by
  cases a <;> decide

theorem slash_not_mem_ending (a : Artifact) : '/' ∉ a.ending.toList := by
  cases a <;> decide

end Artifact

/-- The name of a file of a kind for a model. -/
def TableModel.fileName (m : TableModel) (a : Artifact) : String := Code.moduleName m.className ++ a.ending

theorem TableModel.isFileName_fileName {m : TableModel} (typed : isTypeName m.className = true) (a : Artifact) :
    Path.IsFileName (m.fileName a) := by
  have long : 3 ≤ (m.fileName a).toList.length := by
    rw [fileName, String.toList_append, List.length_append]
    exact Nat.le_add_left_of_le a.length_ending
  refine ⟨?_, ?_, ?_⟩
  · rw [fileName, String.toList_append, List.mem_append, not_or]
    refine ⟨fun slash => ?_, a.slash_not_mem_ending⟩
    exact absurd (Text.Words.isPlain_of_mem_snake (isPlain_of_isTypeName typed) slash) (by decide)
  · cases idle : Path.isIdle (m.fileName a).toList with
    | false => rfl
    | true =>
        simp only [Path.isIdle, Bool.or_eq_true, beq_iff_eq] at idle
        rcases idle with none | dot
        · simp [none] at long
        · simp [dot] at long
  · intro dots
    simp [dots] at long

namespace Generation

variable {κ δ : Type} {schema : Schema} {options : EmitOptions} {r : Resolution}

/-! ## Sites of files -/

/-- The models with the kinds of file that are asked for them, in the order in which a run writes them. -/
def sites (r : Resolution) (options : EmitOptions) : List ((String × LinkedModel) × Artifact) :=
  r.models.toList.flatMap fun e => (Artifact.all.filter (options.asks e.2.toTableModel)).map (e, ·)

def pathOf (r : Resolution) (m : TableModel) (a : Artifact) : String :=
  Path.join ((r.artifactDirectory m a).getD "") (m.fileName a)

def sitePath (r : Resolution) (site : (String × LinkedModel) × Artifact) : String :=
  pathOf r site.1.2.toTableModel site.2

theorem mem_sites {site : (String × LinkedModel) × Artifact} : site ∈ sites r options ↔
    site.1 ∈ r.models.toList ∧ options.asks site.1.2.toTableModel site.2 = true := by
  obtain ⟨e, a⟩ := site
  have every : a ∈ Artifact.all := by cases a <;> decide
  simp only [sites, List.mem_flatMap, List.mem_map, List.mem_filter, Prod.mk.injEq]
  constructor
  · rintro ⟨_, member, _, ⟨-, asked⟩, rfl, rfl⟩
    exact ⟨member, asked⟩
  · rintro ⟨member, asked⟩
    exact ⟨e, member, a, ⟨every, asked⟩, rfl, rfl⟩

theorem nodup_sites : (sites r options).Nodup := by
  have distinct : r.models.toList.Nodup := List.Nodup.of_map _ r.models.nodup_keys
  rw [sites, List.nodup_flatMap]
  refine ⟨fun e _ => ?_, distinct.imp ?_⟩
  · refine List.Nodup.map (fun _ _ same => (Prod.mk.inj same).2) (List.Nodup.filter _ ?_)
    decide
  · intro e e' differ site first second
    obtain ⟨_, -, rfl⟩ := List.mem_map.mp first
    obtain ⟨_, -, same⟩ := List.mem_map.mp second
    exact differ (Prod.mk.inj same).1.symm

theorem paths_filesOf (t : CodeTable) : (filesOf r options t).map (·.path) =
    (Artifact.all.filter (options.asks t.model.toTableModel)).map (pathOf r t.model.toTableModel) := by
  have own (a : Artifact) : (fileOf r options t a).path = pathOf r t.model.toTableModel a := by
    simp only [fileOf, pathOf, TableModel.fileName, CodeTable.moduleName, CodeTable.className]
  rw [filesOf, List.map_map]
  exact List.map_congr_left fun a _ => own a

/-- A run writes a file for every site. -/
theorem paths_of_plan {files : List GeneratedFile} (planned : (plan schema r options).1 = .ok files) :
    files.map (·.path) = (sites r options).map (sitePath r) := by
  obtain ⟨tables, made, rfl⟩ := plan_eq_ok.mp planned
  have written : (tables.flatMap (filesOf r options)).map (·.path) =
      (tables.map (·.model)).flatMap fun m =>
        (Artifact.all.filter (options.asks m.toTableModel)).map (pathOf r m.toTableModel) := by
    rw [List.map_flatMap, List.flatMap_map]
    exact congrArg (tables.flatMap ·) (funext paths_filesOf)
  rw [written, models_of_tables made, KeyMap.values, List.flatMap_map, sites, List.map_flatMap]
  simp only [List.map_map, Function.comp_def, sitePath, KeyMap.toList]

/-! ## Files of different models -/

/-- A file of one model has the name of a file of another, and is in the same directory as far as a view of
directories shows. -/
def Meet (view : String → κ) (r : Resolution) (options : EmitOptions) (m m' : TableModel) : Prop :=
  ∃ a a', options.asks m a = true ∧ options.asks m' a' = true ∧
    (r.artifactDirectory m a).map view = (r.artifactDirectory m' a').map view ∧ m.fileName a = m'.fileName a'

/-- No files of different models meet. -/
def Apart (view : String → κ) (r : Resolution) (options : EmitOptions) : Prop :=
  ∀ k m k' m', (k, m) ∈ r.models.toList → (k', m') ∈ r.models.toList → k ≠ k' →
    ¬ Meet view r options m.toTableModel m'.toTableModel

/-- Where directories and names show in a view of paths, files differ in it if and only if no files of
different models meet. -/
theorem nodup_view_iff {files : List GeneratedFile} {key : String → δ} {view : String → κ}
    (planned : (plan schema r options).1 = .ok files)
    (shows : ∀ x ∈ sites r options, ∀ y ∈ sites r options, (key (sitePath r x) = key (sitePath r y) ↔
      (r.artifactDirectory x.1.2.toTableModel x.2).map view =
          (r.artifactDirectory y.1.2.toTableModel y.2).map view ∧
        x.1.2.toTableModel.fileName x.2 = y.1.2.toTableModel.fileName y.2)) :
    (files.map fun f => key f.path).Nodup ↔ Apart view r options := by
  have keys : (files.map fun f => key f.path) = (sites r options).map fun x => key (sitePath r x) := by
    simpa only [List.map_map, Function.comp_def] using congrArg (List.map key) (paths_of_plan planned)
  rw [keys, List.nodup_map_iff_inj_on nodup_sites]
  constructor
  · rintro inj k m k' m' member member' differ ⟨a, a', asked, asked', directory, name⟩
    have first : ((k, m), a) ∈ sites r options := mem_sites.mpr ⟨member, asked⟩
    have second : ((k', m'), a') ∈ sites r options := mem_sites.mpr ⟨member', asked'⟩
    have same := inj _ first _ second ((shows _ first _ second).mpr ⟨directory, name⟩)
    exact differ (Prod.mk.inj (Prod.mk.inj same).1).1
  · rintro apart ⟨⟨k, m⟩, a⟩ first ⟨⟨k', m'⟩, a'⟩ second same
    obtain ⟨directory, name⟩ := (shows _ first _ second).mp same
    obtain ⟨member, asked⟩ := mem_sites.mp first
    obtain ⟨member', asked'⟩ := mem_sites.mp second
    by_cases differ : k = k'
    · -- the files of one model have one stem and different endings
      subst differ
      cases Option.some.inj ((KeyMap.get?_eq_some_iff.mpr member).symm.trans (KeyMap.get?_eq_some_iff.mpr member'))
      have ending : a.ending.toList = a'.ending.toList := by
        have chars := congrArg String.toList name
        simp only [TableModel.fileName, String.toList_append] at chars
        exact List.append_cancel_left chars
      rw [Artifact.ending_injective (String.toList_inj.mp ending)]
    · exact absurd ⟨a, a', asked, asked', directory, name⟩ (apart k m k' m' member member' differ)

section Resolved

variable [PatternEngine] {policy : DanglingPolicy} {root filter : Option String} {entries : KeyMap ConfigEntry}
  {files : List GeneratedFile}

/-- Every file is under its name in the directory for it. -/
theorem sitePath_eq (resolved : (Resolution.resolve policy root filter entries).result = .ok r)
    {x : (String × LinkedModel) × Artifact} (member : x ∈ sites r options) :
    ∃ d, r.artifactDirectory x.1.2.toTableModel x.2 = some d ∧
      sitePath r x = Path.join d (x.1.2.toTableModel.fileName x.2) ∧
      Path.IsFileName (x.1.2.toTableModel.fileName x.2) := by
  obtain ⟨⟨name, m⟩, a⟩ := x
  obtain ⟨model, asked⟩ := mem_sites.mp member
  obtain ⟨entry, -, built⟩ := Resolution.build_of_mem resolved model
  obtain ⟨place, found⟩ := Option.isSome_iff_exists.mp (options.isSome_place asked)
  have directory : (r.artifactDirectory m.toTableModel a).isSome = true := by
    simp [Resolution.artifactDirectory, found]
  obtain ⟨d, placed⟩ := Option.isSome_iff_exists.mp directory
  refine ⟨d, placed, ?_, TableModel.isFileName_fileName (TableModel.isTypeName_of_build built) a⟩
  simp only [sitePath, pathOf, placed, Option.getD_some]

/-- Where the view of a path has the name behind the view of the directory, files differ in it if and only if no
files of different models meet. -/
theorem nodup_joined_iff (resolved : (Resolution.resolve policy root filter entries).result = .ok r)
    (planned : (plan schema r options).1 = .ok files) {view : String → List κ} {last : String → κ}
    (injective : Function.Injective last) (joined : ∀ {directory name : String}, Path.IsFileName name →
      view (Path.join directory name) = view directory ++ [last name]) :
    (files.map fun f => view f.path).Nodup ↔ Apart view r options := by
  apply nodup_view_iff planned
  intro x first y second
  obtain ⟨d, placed, path, named⟩ := sitePath_eq resolved first
  obtain ⟨d', placed', path', named'⟩ := sitePath_eq resolved second
  rw [path, path', joined named, joined named', placed, placed']
  simp [injective.eq_iff]

/-- Files have different paths if and only if no files of different models meet. -/
theorem nodup_parts_iff (resolved : (Resolution.resolve policy root filter entries).result = .ok r)
    (planned : (plan schema r options).1 = .ok files) :
    (files.map fun f => Path.parts f.path).Nodup ↔ Apart Path.parts r options :=
  nodup_joined_iff resolved planned (fun _ _ => Path.Part.named.inj) Path.parts_join

/-- Files lead to different places if and only if no files of different models meet. -/
theorem nodup_leadsTo_iff (resolved : (Resolution.resolve policy root filter entries).result = .ok r)
    (planned : (plan schema r options).1 = .ok files) (here : FileTree.Place) :
    (files.map fun f => leadsTo here f.path).Nodup ↔ Apart (leadsTo here) r options :=
  nodup_joined_iff resolved planned Function.injective_id FileTree.leadsTo_join

/-- After a run on a tree, every file is there as the formatter lays it out, if no files of different models
meet and none has the name of an index. -/
theorem read_of_apart (resolved : (Resolution.resolve policy root filter entries).result = .ok r)
    (planned : (plan schema r options).1 = .ok files) {format : String → String} {here : FileTree.Place}
    {t t' : FileTree here} {report : Report}
    (ran : (run (Sink.toFiles format FileTree.access) schema r options).run.run t = (.ok report, t'))
    (apart : Apart (leadsTo here) r options)
    (plain : ∀ m ∈ r.models.values, ∀ a, options.asks m.toTableModel a = true →
      m.toTableModel.fileName a ≠ "mod.rs") :
    ∀ f ∈ files, t'.read f.path = .ok (format f.contents) := by
  intro f member
  have distinct := (nodup_leadsTo_iff resolved planned here).mpr apart
  obtain ⟨before, after, split⟩ := List.append_of_mem member
  apply read_of_run planned ran split
  · intro g later same
    rw [split, List.map_append, List.map_cons, List.nodup_append, List.nodup_cons] at distinct
    exact distinct.2.1.1 (List.mem_map.mpr ⟨g, later, same⟩)
  · intro d _ same
    -- an index and a file in one place would have one name
    have written : f.path ∈ (sites r options).map (sitePath r) :=
      paths_of_plan planned ▸ List.mem_map_of_mem member
    obtain ⟨x, site, path⟩ := List.mem_map.mp written
    obtain ⟨model, asked⟩ := mem_sites.mp site
    obtain ⟨directory, -, own, named⟩ := sitePath_eq resolved site
    have index : Path.IsFileName "mod.rs" := ⟨by decide, by decide, by decide⟩
    rw [indexPath, FileTree.leadsTo_join index, ← path, own, FileTree.leadsTo_join named] at same
    have one : ["mod.rs"] = [x.1.2.toTableModel.fileName x.2] := (List.append_inj' same rfl).2
    exact plain x.1.2 (List.mem_map_of_mem model) x.2 asked (List.singleton_inj.mp one).symm

/-- The paths that a run reports are different if and only if no files of different models have one name in
directories of the same parts. Where no files of different models have one name in directories that lead to
one place, and none has the name of an index, all files of a run on a tree are there at its end, each as the
formatter lays out what was generated. -/
theorem paths_nodup_iff {σ : Type} {sink : Sink (StateM σ)} {s s' : σ} {report : Report}
    (resolved : (Resolution.resolve policy root filter entries).result = .ok r)
    (ran : (run sink schema r options).run.run s = (.ok report, s')) :
    ((report.files.map Path.parts).Nodup ↔ Apart Path.parts r options) ∧
    ∃ files, (plan schema r options).1 = .ok files ∧ report.files = files.map (·.path) ∧
      ∀ (format : String → String) (here : FileTree.Place) (t t' : FileTree here),
        (run (Sink.toFiles format FileTree.access) schema r options).run.run t = (.ok report, t') →
        Apart (leadsTo here) r options →
        (∀ m ∈ r.models.values, ∀ a, options.asks m.toTableModel a = true →
          m.toTableModel.fileName a ≠ "mod.rs") →
        ∀ f ∈ files, t'.read f.path = .ok (format f.contents) := by
  cases planned : (plan schema r options).1 with
  | error e =>
      rw [run_of_error planned] at ran
      cases ran
  | ok files =>
      obtain ⟨rfl, -⟩ := takes_of_run planned ran
      refine ⟨?_, files, rfl, rfl, ?_⟩
      · rw [List.map_map]
        exact nodup_parts_iff resolved planned
      · intro format here t t' stored apart plain
        exact read_of_apart resolved planned stored apart plain

end Resolved

open scoped Pattern in
theorem paths_nodup_circle : ∃ all report,
    (Resolution.resolve .fail (some "out") none circle).result = .ok all ∧
    (run .recording twoTables all {}).run.run [] = (.ok report, report.files) ∧
    ((report.files.map Path.parts).Nodup ↔ Apart Path.parts all {}) := by
  obtain ⟨all, files, resolved, planned⟩ := exists_plan_circle
  exact ⟨all, _, resolved, run_recording planned, (paths_nodup_iff resolved (run_recording planned)).1⟩

/-- Configurations of two tables with one class and one directory for files of a kind. -/
def oneClass : KeyMap ConfigEntry :=
  .ofList
    [("customer", { Resolution.sample [] with className := "User" }),
      ("user", { Resolution.sample [] with className := "User", table := "u" })]

open scoped Pattern in
/-- The files of the second table are written over those of the first. -/
theorem paths_not_nodup : ∃ r report t',
    (Resolution.resolve .fail none none oneClass).result = .ok r ∧
    (run (Sink.toFiles id FileTree.access) twoTables r {}).run.run (.empty : FileTree []) = (.ok report, t') ∧
    report = ⟨["customer", "user"], ["e/user.rs", "m/user_mapper.rs", "e/user.rs", "m/user_mapper.rs"]⟩ ∧
    ¬ (report.files.map Path.parts).Nodup ∧
    t'.nodes.map (·.1) =
      [["e"], ["e", "mod.rs"], ["e", "user.rs"], ["m"], ["m", "mod.rs"], ["m", "user_mapper.rs"]] := by
  have shown : ((Resolution.resolve .fail none none oneClass).result.toOption.map fun r =>
      let (result, t') := (run (Sink.toFiles id FileTree.access) twoTables r {}).run.run (.empty : FileTree [])
      (result.toOption, t'.nodes.map (·.1))) =
      some (some ⟨["customer", "user"], ["e/user.rs", "m/user_mapper.rs", "e/user.rs", "m/user_mapper.rs"]⟩,
        [["e"], ["e", "mod.rs"], ["e", "user.rs"], ["m"], ["m", "mod.rs"], ["m", "user_mapper.rs"]]) := by
    decide +kernel
  cases resolved : (Resolution.resolve .fail none none oneClass).result with
  | error e => simp [resolved, Except.toOption] at shown
  | ok r =>
      cases ran : (run (Sink.toFiles id FileTree.access) twoTables r {}).run.run (.empty : FileTree []) with
      | mk result t' =>
          cases result with
          | error e => simp [resolved, ran, Except.toOption] at shown
          | ok report =>
              simp only [resolved, ran, Except.toOption, Option.map_some, Option.some.injEq,
                Prod.mk.injEq] at shown
              obtain ⟨rfl, places⟩ := shown
              exact ⟨r, _, t', rfl, ran, rfl, by decide +kernel, places⟩

end Generation

end TableMapper
