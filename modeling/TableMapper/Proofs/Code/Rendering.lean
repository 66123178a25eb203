import TableMapper.Code.Generation
import TableMapper.Proofs.Code.Fields
import TableMapper.Proofs.Config.Linking

/-! # Rendered models

A run keeps what it has been told about tables, and asks for no table twice. What it renders does not show
this: every model comes to the files that it would come to by itself, with the schema asked whenever columns
are needed. Main statements: `plan_eq` says so for the plan of a run, and `exists_tableOf_iff` says which
models come to files.
-/

namespace TableMapper

/-! ## Descriptions that are kept -/

/-- What is described is what the schema says. -/
def Described.Faithful (schema : Schema) (d : Described) : Prop :=
  ∀ table columns, d.columns.get? table = some columns → schema table = .ok columns

theorem Described.faithful_none (schema : Schema) : Described.none.Faithful schema := by
  intro table columns found
  cases found

namespace Planning

variable {α β : Type} {schema : Schema}

theorem run_get_bind (next : Described → Planning α) (d : Described) :
    (get >>= next).run.run d = (next d).run.run d :=
  run_bind_of_ok rfl next

section Describe

variable {table : String} {columns : List SchemaColumn} {d : Described} {e : GenerationError}

theorem run_describe_of_known (known : d.columns.get? table = some columns) :
    (describe schema table).run.run d = (.ok columns, d) := by
  rw [describe, run_get_bind, known]
  rfl

theorem run_describe_of_error (new : d.columns.get? table = none) (answer : schema table = .error e) :
    (describe schema table).run.run d = (.error e, ⟨d.columns, d.asked ++ [table]⟩) := by
  rw [describe, run_get_bind, new, answer]
  rfl

theorem run_describe_of_ok (new : d.columns.get? table = none) (answer : schema table = .ok columns) :
    (describe schema table).run.run d = (.ok columns, ⟨d.columns.insert table columns, d.asked ++ [table]⟩) := by
  rw [describe, run_get_bind, new, answer]
  rfl

end Describe

/-- From any faithful descriptions a step comes to one outcome, and keeps them faithful. -/
def Yields (schema : Schema) (step : Planning α) (outcome : Except GenerationError α) : Prop :=
  ∀ d : Described, d.Faithful schema → ∃ d', step.run.run d = (outcome, d') ∧ d'.Faithful schema

theorem yields_pure (a : α) : Yields schema (pure a) (.ok a) :=
  fun d faithful => ⟨d, rfl, faithful⟩

theorem yields_throw (e : GenerationError) : Yields schema (throw e : Planning α) (.error e) :=
  fun d faithful => ⟨d, rfl, faithful⟩

theorem Yields.bind {step : Planning α} {outcome : Except GenerationError α} {next : α → Planning β}
    {after : α → Except GenerationError β} (first : Yields schema step outcome)
    (second : ∀ a, Yields schema (next a) (after a)) : Yields schema (step >>= next) (outcome >>= after) := by
  intro d faithful
  obtain ⟨d', ran, kept⟩ := first d faithful
  cases outcome with
  | error e => exact ⟨d', run_bind_of_error ran next, kept⟩
  | ok a =>
      rw [run_bind_of_ok ran]
      exact second a d' kept

/-- A description that is kept is the one that the schema would give again. -/
theorem yields_describe (table : String) : Yields schema (describe schema table) (schema table) := by
  intro d faithful
  cases known : d.columns.get? table with
  | some columns =>
      rw [run_describe_of_known known, faithful table columns known]
      exact ⟨d, rfl, faithful⟩
  | none =>
      cases answer : schema table with
      | error e => exact ⟨_, run_describe_of_error known answer, faithful⟩
      | ok columns =>
          refine ⟨_, run_describe_of_ok known answer, ?_⟩
          intro other others found
          rw [KeyMap.get?_insert] at found
          split at found
          · next same =>
            cases found
            rw [same, answer]
          · exact faithful other others found

/-- The check of one join, with the schema asked for its table. -/
def checkRemote (schema : Schema) (config : String) (join : LinkedJoin) : Except GenerationError Unit := do
  let columns ← schema join.model.table
  if columns.any fun c => c.name == join.remoteField then .ok ()
  else .error (.config ⟨config, "joins." ++ join.label ++ ".remote_field",
    .noColumnNamed join.model.table join.remoteField⟩)

theorem yields_checkRemotes (config : String) (joins : List LinkedJoin) :
    Yields schema (checkRemotes schema config joins) (joins.forM (checkRemote schema config)) := by
  induction joins with
  | nil => exact yields_pure ()
  | cons join rest ih =>
      have step : (join :: rest).forM (checkRemote schema config) =
          schema join.model.table >>= fun columns =>
            if columns.any fun c => c.name == join.remoteField then rest.forM (checkRemote schema config)
            else .error (.config ⟨config, "joins." ++ join.label ++ ".remote_field",
              .noColumnNamed join.model.table join.remoteField⟩) := by
        change (checkRemote schema config join >>= fun _ => rest.forM (checkRemote schema config)) = _
        rw [checkRemote, bind_assoc]
        congr 1
        funext columns
        split <;> rfl
      rw [step]
      apply (yields_describe join.model.table).bind
      intro columns
      split
      · exact ih
      · exact yields_throw _

end Planning

/-! ## Files of a table -/

/-- What stands behind the name that the files of a table share. -/
def Artifact.ending : Artifact → String
  | .entity => ".rs"
  | .mapper => "_mapper.rs"
  | .repository => "_repository.rs"

/-- Whether files of a kind are generated for a model. -/
def EmitOptions.asks (options : EmitOptions) (m : TableModel) : Artifact → Bool
  | .entity => options.entities
  | .mapper => options.mappers
  | .repository => options.repositories && m.repository.isSome

/-- What is asked for has a place. -/
theorem EmitOptions.isSome_place {options : EmitOptions} {m : TableModel} {a : Artifact}
    (asked : options.asks m a = true) : (m.place a).isSome = true := by
  cases a with
  | entity | mapper => rfl
  | repository => exact ((Bool.and_eq_true _ _).mp asked).2

namespace Generation

open Planning (Yields checkRemote yields_describe yields_checkRemotes yields_pure yields_throw)

variable {schema : Schema} {r : Resolution} {options : EmitOptions} {m : LinkedModel}

/-- The source of a table's file of a kind. -/
def source (options : EmitOptions) (t : CodeTable) : Artifact → String
  | .entity => Code.entitySource t
  | .mapper => Code.mapperSource t (options.asks t.model.toTableModel .repository)
  | .repository => Code.repositorySource t

def fileOf (r : Resolution) (options : EmitOptions) (t : CodeTable) (a : Artifact) : GeneratedFile :=
  ⟨Path.join ((r.artifactDirectory t.model.toTableModel a).getD "") (t.moduleName ++ a.ending),
    source options t a⟩

/-- The files of a table: the entity, the mapper and the repository, as far as they are asked for. -/
def filesOf (r : Resolution) (options : EmitOptions) (t : CodeTable) : List GeneratedFile :=
  (Artifact.all.filter (options.asks t.model.toTableModel)).map (fileOf r options t)

/-- One file, if it is asked for. -/
def fileIf (r : Resolution) (t : CodeTable) (a : Artifact) (asked : Bool) (source : String) :
    Except GenerationError (List GeneratedFile) :=
  if asked then do .ok [⟨← target r t.model.toTableModel a (t.moduleName ++ a.ending), source⟩] else .ok []

/-- There is a directory for every kind of file that is asked for. -/
theorem fileIf_eq (r : Resolution) (options : EmitOptions) (t : CodeTable) (a : Artifact) :
    fileIf r t a (options.asks t.model.toTableModel a) (source options t a) =
      .ok (([a].filter (options.asks t.model.toTableModel)).map (fileOf r options t)) := by
  cases asked : options.asks t.model.toTableModel a with
  | false => simp [fileIf, asked]
  | true =>
      obtain ⟨place, found⟩ := Option.isSome_iff_exists.mp (options.isSome_place asked)
      have named : target r t.model.toTableModel a (t.moduleName ++ a.ending) =
          .ok (Path.join ((r.artifactDirectory t.model.toTableModel a).getD "") (t.moduleName ++ a.ending)) := by
        simp [target, Resolution.artifactDirectory, found]
      have kept : [a].filter (options.asks t.model.toTableModel) = [a] := by simp [asked]
      rw [fileIf, if_pos rfl, named, kept, List.map_singleton, fileOf]
      simp only [bind, Except.bind]

theorem bind_ite {ε α β : Type} {c : Prop} [Decidable c] (x y : Except ε α) (next : α → Except ε β) :
    (if c then x else y) >>= next = if c then x >>= next else y >>= next := by
  split <;> rfl

/-- A table comes to its files, which are the entity, the mapper and the repository as far as they are asked
for. -/
theorem files_eq (t : CodeTable) : files r options t = .ok (filesOf r options t) := by
  have steps : files r options t = (do
      let entities ← fileIf r t .entity options.entities (Code.entitySource t)
      let mappers ← fileIf r t .mapper options.mappers
        (Code.mapperSource t (options.repositories && t.model.repository.isSome))
      let repositories ← fileIf r t .repository (options.repositories && t.model.repository.isSome)
        (Code.repositorySource t)
      .ok (entities ++ mappers ++ repositories)) := by
    simp only [files, fileIf, bind_ite, bind_assoc, Artifact.ending]
  rw [steps]
  have entity := fileIf_eq r options t .entity
  have mapper := fileIf_eq r options t .mapper
  have repository := fileIf_eq r options t .repository
  simp only [EmitOptions.asks, source] at entity mapper repository
  rw [entity, mapper, repository]
  change Except.ok (_ ++ _ ++ _) = Except.ok (List.map _ _)
  rw [← List.map_append, ← List.map_append, ← List.filter_append, ← List.filter_append]
  rfl

/-! ## Plans -/

/-- The table that code is generated for, once its columns are described and its rules and joins checked. -/
def tableOf (schema : Schema) (m : LinkedModel) : Except GenerationError CodeTable := do
  let columns ← schema m.table
  let table ← CodeTable.build m columns
  m.joins.forM (checkRemote schema m.name)
  .ok table

theorem yields_liftExcept {α : Type} (e : Except GenerationError α) :
    Yields schema (planModel.liftExcept e) e := by
  cases e with
  | ok a => exact yields_pure a
  | error e => exact yields_throw e

theorem yields_planModel (r : Resolution) (options : EmitOptions) (m : LinkedModel) :
    Yields schema (planModel schema r options m) ((tableOf schema m).map (filesOf r options)) := by
  have steps : (tableOf schema m).map (filesOf r options) =
      schema m.table >>= fun columns => CodeTable.build m columns >>= fun table =>
        m.joins.forM (checkRemote schema m.name) >>= fun _ => files r options table := by
    simp only [tableOf, files_eq]
    cases schema m.table with
    | error e => rfl
    | ok columns =>
        change (CodeTable.build m columns >>= _).map _ = CodeTable.build m columns >>= _
        cases CodeTable.build m columns with
        | error e => rfl
        | ok table =>
            change (m.joins.forM (checkRemote schema m.name) >>= _).map _ =
              m.joins.forM (checkRemote schema m.name) >>= _
            cases m.joins.forM (checkRemote schema m.name) <;> rfl
  rw [steps]
  apply (yields_describe m.table).bind
  intro columns
  apply (yields_liftExcept _).bind
  intro table
  apply (yields_checkRemotes m.name m.joins).bind
  intro _
  exact yields_liftExcept _

theorem yields_planAll (r : Resolution) (options : EmitOptions) (models : List LinkedModel) :
    Yields schema (planAll schema r options models)
      ((models.mapM (tableOf schema)).map fun tables => tables.flatMap (filesOf r options)) := by
  induction models with
  | nil => exact yields_pure []
  | cons m rest ih =>
      have steps : ((m :: rest).mapM (tableOf schema)).map (fun tables => tables.flatMap (filesOf r options)) =
          (tableOf schema m).map (filesOf r options) >>= fun first =>
            ((rest.mapM (tableOf schema)).map fun tables => tables.flatMap (filesOf r options)) >>= fun others =>
              .ok (first ++ others) := by
        rw [List.mapM_cons]
        cases tableOf schema m with
        | error e => rfl
        | ok table => cases rest.mapM (tableOf schema) <;> rfl
      rw [steps]
      apply (yields_planModel r options m).bind
      intro first
      apply ih.bind
      intro others
      exact yields_pure _

/-- The files of a run are those of its tables, one after the other. -/
theorem plan_eq (schema : Schema) (r : Resolution) (options : EmitOptions) :
    (plan schema r options).1 = (r.models.values.mapM (tableOf schema)).map fun tables =>
      tables.flatMap (filesOf r options) := by
  obtain ⟨d, ran, -⟩ := yields_planAll r options r.models.values .none
    (Described.faithful_none schema)
  simp only [plan, ran]

/-! ## Models that come to files -/

/-- A join leads to a column of the joined table. -/
def Reaches (schema : Schema) (join : LinkedJoin) : Prop :=
  ∃ columns, schema join.model.table = .ok columns ∧ ∃ c ∈ columns, c.name = join.remoteField

theorem checkRemote_eq_ok {config : String} {join : LinkedJoin} :
    checkRemote schema config join = .ok () ↔ Reaches schema join := by
  unfold checkRemote Reaches
  cases schema join.model.table with
  | error e => simp [bind, Except.bind]
  | ok columns =>
      change (if (columns.any fun c => c.name == join.remoteField) = true then _ else _) = _ ↔ _
      split
      · next found => simpa using found
      · next absent => simpa using absent

theorem tableOf_eq_ok {t : CodeTable} : tableOf schema m = .ok t ↔
    ∃ columns, schema m.table = .ok columns ∧ CodeTable.build m columns = .ok t ∧
      ∀ j ∈ m.joins, Reaches schema j := by
  have checks : (∀ j ∈ m.joins, Reaches schema j) ↔ m.joins.forM (checkRemote schema m.name) = .ok () := by
    rw [forM_eq_ok]
    exact forall₂_congr fun j _ => checkRemote_eq_ok.symm
  simp only [checks]
  constructor
  · intro made
    obtain ⟨columns, described, made⟩ := exists_of_bind made
    obtain ⟨table, built, made⟩ := exists_of_bind made
    obtain ⟨⟨⟩, checked, made⟩ := exists_of_bind made
    cases made
    exact ⟨columns, described, built, checked⟩
  · rintro ⟨columns, described, built, checked⟩
    simp only [tableOf, described, bind, Except.bind, built, checked]

theorem models_of_tables {models : List LinkedModel} {tables : List CodeTable}
    (made : List.Forall₂ (fun m t => tableOf schema m = .ok t) models tables) :
    tables.map (·.model) = models := by
  induction made with
  | nil => rfl
  | cons first _ ih =>
      obtain ⟨_, -, built, -⟩ := tableOf_eq_ok.mp first
      rw [List.map_cons, ih, (CodeTable.build_eq_ok.mp built).1]

/-- A model can be described, its columns are right for it, and its joins lead to columns. -/
structure Renders (schema : Schema) (m : LinkedModel) : Prop where
  fits : ∃ columns, schema m.table = .ok columns ∧ CodeTable.Fits m columns
  reaches : ∀ j ∈ m.joins, Reaches schema j

theorem exists_tableOf_iff : (∃ t, tableOf schema m = .ok t) ↔ Renders schema m := by
  simp only [tableOf_eq_ok]
  constructor
  · rintro ⟨t, columns, described, built, reaches⟩
    exact ⟨⟨columns, described, CodeTable.exists_build_iff.mp ⟨t, built⟩⟩, reaches⟩
  · rintro ⟨⟨columns, described, fits⟩, reaches⟩
    obtain ⟨t, built⟩ := CodeTable.exists_build_iff.mpr fits
    exact ⟨t, columns, described, built, reaches⟩

theorem plan_eq_ok {files : List GeneratedFile} : (plan schema r options).1 = .ok files ↔
    ∃ tables, List.Forall₂ (fun m t => tableOf schema m = .ok t) r.models.values tables ∧
      files = tables.flatMap (filesOf r options) := by
  simp only [plan_eq, ← mapM_eq_ok]
  constructor
  · intro planned
    obtain ⟨tables, made, same⟩ := exists_of_map planned
    exact ⟨tables, made, same.symm⟩
  · rintro ⟨tables, made, rfl⟩
    rw [made]
    rfl

/-- A run has a plan when every model comes to files. -/
theorem exists_plan_iff :
    (∃ files, (plan schema r options).1 = .ok files) ↔ ∀ m ∈ r.models.values, Renders schema m := by
  simp only [plan_eq_ok, ← exists_tableOf_iff, ← exists_forall₂_iff]
  constructor
  · rintro ⟨_, tables, made, -⟩
    exact ⟨tables, made⟩
  · rintro ⟨tables, made⟩
    exact ⟨_, tables, made, rfl⟩

/-! ## A circle of joins -/

/-- Three configurations, each joined to the next, where the last is of the table that the first is of. -/
def circle : KeyMap ConfigEntry :=
  .ofList
    [("a", Resolution.sample [("next", "b")]),
      ("b", { Resolution.sample [("next", "c"), ("self", "b")] with table := "u", className := "U" }),
      ("c", { Resolution.sample [("next", "a")] with className := "V" })]

/-- A schema of two tables, which have the columns that sample joins go through. -/
def twoTables : Schema := fun table =>
  if table = "t" ∨ table = "u" then .ok [{ name := "x", type := "int" }, { name := "y", type := "int" }]
  else .error (.missingTable table)

open scoped Pattern in
theorem exists_plan_circle : ∃ all files,
    (Resolution.resolve .fail (some "out") none circle).result = .ok all ∧
    (plan twoTables all {}).1 = .ok files := by
  have planned : ((Resolution.resolve .fail (some "out") none circle).result.bind fun all =>
      (plan twoTables all {}).1).toOption.isSome = true := by decide +kernel
  cases resolved : (Resolution.resolve .fail (some "out") none circle).result with
  | error e => simp [resolved, Except.bind, Except.toOption] at planned
  | ok all =>
      cases made : (plan twoTables all {}).1 with
      | error e => simp [resolved, made, Except.bind, Except.toOption] at planned
      | ok files => exact ⟨all, files, rfl, made⟩

end Generation

end TableMapper
