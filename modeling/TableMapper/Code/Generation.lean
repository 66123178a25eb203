import TableMapper.Code.Entity
import TableMapper.Code.Mapper

/-! # Generation

All tables of a run are described, checked and rendered before the first file is written, so that a table
that fails leaves nothing behind. What is written where depends on a receiver of files only as far as the
receiver fails.
-/

namespace TableMapper

/-- What describes the columns of tables. -/
abbrev Schema := String → Except GenerationError (List SchemaColumn)

/-- Which kinds of file a run generates. -/
structure EmitOptions where
  entities : Bool := true
  mappers : Bool := true
  repositories : Bool := true
  deriving DecidableEq, Repr

structure GeneratedFile where
  path : String
  contents : String
  deriving DecidableEq, Repr

/-- What a run has done. -/
structure Report where
  /-- The names of the configurations. -/
  tables : List String
  /-- The paths of the files, in the order in which they were written. -/
  files : List String
  deriving DecidableEq, Repr

/-- The descriptions that a run has asked for so far. -/
structure Described where
  /-- The columns of the tables that are described. -/
  columns : KeyMap (List SchemaColumn)
  /-- The tables that the schema was asked for, in order. -/
  asked : List String

namespace Described

/-- Nothing is described. -/
def none : Described := ⟨.empty, []⟩

end Described

/-- A step of planning, which may ask for descriptions and fail. -/
abbrev Planning := ExceptT GenerationError (StateM Described)

namespace Planning

/-- The columns of a table. The schema is asked for each table once. -/
def describe (schema : Schema) (table : String) : Planning (List SchemaColumn) := do
  let known ← get
  match known.columns.get? table with
  | some columns => pure columns
  | none =>
    set { known with asked := known.asked ++ [table] }
    match schema table with
    | .error e => throw e
    | .ok columns =>
      modify fun d => { d with columns := d.columns.insert table columns }
      pure columns

/-- Checks that joins lead to columns of the joined tables. -/
def checkRemotes (schema : Schema) (config : String) : List LinkedJoin → Planning Unit
  | [] => pure ()
  | join :: rest => do
    let columns ← describe schema join.model.table
    if columns.any fun c => c.name == join.remoteField then checkRemotes schema config rest
    else
      throw (.config ⟨config, "joins." ++ join.label ++ ".remote_field",
        .noColumnNamed join.model.table join.remoteField⟩)

end Planning

namespace Generation

/-- The path of a file of a table. -/
def target (r : Resolution) (m : TableModel) (a : Artifact) (file : String) :
    Except GenerationError String :=
  match r.artifactDirectory m a with
  | some directory => .ok (Path.join directory file)
  | none => .error (.config ⟨m.name, "path." ++ a.name, .required⟩)

def files (r : Resolution) (options : EmitOptions) (t : CodeTable) :
    Except GenerationError (List GeneratedFile) := do
  let m := t.model.toTableModel
  let repository := options.repositories && m.repository.isSome
  let entities ←
    if options.entities then do
      .ok [⟨← target r m .entity (t.moduleName ++ ".rs"), Code.entitySource t⟩]
    else .ok []
  let mappers ←
    if options.mappers then do
      .ok [⟨← target r m .mapper (t.moduleName ++ "_mapper.rs"), Code.mapperSource t repository⟩]
    else .ok []
  let repositories ←
    if repository then do
      .ok [⟨← target r m .repository (t.moduleName ++ "_repository.rs"), Code.repositorySource t⟩]
    else .ok []
  .ok (entities ++ mappers ++ repositories)

/-- The files of a model. -/
def planModel (schema : Schema) (r : Resolution) (options : EmitOptions) (m : LinkedModel) :
    Planning (List GeneratedFile) := do
  let columns ← Planning.describe schema m.table
  let table ← liftExcept (CodeTable.build m columns)
  Planning.checkRemotes schema m.name m.joins
  liftExcept (files r options table)
where
  liftExcept {α : Type} (e : Except GenerationError α) : Planning α :=
    match e with
    | .ok a => pure a
    | .error e => throw e

/-- The files of all models in order. -/
def planAll (schema : Schema) (r : Resolution) (options : EmitOptions) :
    List LinkedModel → Planning (List GeneratedFile)
  | [] => pure []
  | m :: rest => do
    let first ← planModel schema r options m
    let others ← planAll schema r options rest
    pure (first ++ others)

/-- The files of a run, and the tables that the schema was asked for. -/
def plan (schema : Schema) (r : Resolution) (options : EmitOptions) :
    Except GenerationError (List GeneratedFile) × List String :=
  let (result, described) := (planAll schema r options r.models.values).run.run .none
  (result, described.asked)

end Generation

/-- A receiver of files: what it does with a file, and with the directories that got files once all are
written. -/
structure Sink (m : Type → Type) where
  write : GeneratedFile → ExceptT GenerationError m Unit
  finish : List String → ExceptT GenerationError m Unit

namespace Sink

/-- The receiver that does nothing. -/
def ignoring [Monad m] : Sink m where
  write _ := pure ()
  finish _ := pure ()

/-- The receiver that only keeps the paths of files, in order. -/
def recording : Sink (StateM (List String)) where
  write file paths := (.ok (), paths ++ [file.path])
  finish _ paths := (.ok (), paths)

/-- Writes files one after the other, up to the first that fails. -/
def writeAll [Monad m] (sink : Sink m) : List GeneratedFile → ExceptT GenerationError m Unit
  | [] => pure ()
  | file :: rest => do
    sink.write file
    sink.writeAll rest

end Sink

namespace Generation

/-- The directories of files, each once and in order. -/
def directories (files : List GeneratedFile) : List String :=
  (files.filterMap fun file => Path.parent? file.path).foldl (fun dirs dir => Path.insertPath dir dirs) []

/-- Writes the files of a run and reports them. -/
def write [Monad m] (sink : Sink m) (r : Resolution) (files : List GeneratedFile) :
    ExceptT GenerationError m Report := do
  sink.writeAll files
  sink.finish (directories files)
  pure ⟨r.models.values.map (·.name), files.map (·.path)⟩

/-- Plans a run and writes its files. Nothing is written if a table fails. -/
def run [Monad m] (sink : Sink m) (schema : Schema) (r : Resolution) (options : EmitOptions) :
    ExceptT GenerationError m Report :=
  match (plan schema r options).1 with
  | .error e => throw e
  | .ok files => write sink r files

end Generation

end TableMapper
