import TableMapper.Code.Output
import TableMapper.Config.Format
import TableMapper.Settings.Basic
import TableMapper.Settings.DatabaseUrl
import TableMapper.Sql.Script

/-! # Runs

A run checks its settings, reads the configurations and the schema, and generates code. Directories are
created before anything is described; files are written once everything is rendered.
-/

namespace TableMapper.Settings

/-- Fails for a reason unless a condition holds. -/
def require [Monad m] (holds : Bool) (fault : SettingsFault) : ExceptT GenerationError m Unit :=
  if holds then pure () else throw (.settings fault)

/-- Checks settings. The first fault is reported. -/
def validate [Monad m] (fs : FileAccess m) (s : Settings) : ExceptT GenerationError m Unit := do
  require (!s.tablesFile.isEmpty) .noTablesFile
  require (← fs.isPresent s.tablesFile) (.tablesFileMissing s.tablesFile)
  match s.schemaFile, s.databaseUrl with
  | none, none => throw (.settings .noSchema)
  | some _, some _ => throw (.settings .twoSchemas)
  | some path, none => require (← fs.isPresent path) (.schemaFileMissing path)
  | none, some _ => pure ()
  require (s.emit.entities || s.emit.mappers || s.emit.repositories) .nothingToGenerate

/-- Reads settings from a document, or refuses it. -/
def ofDocument [Monad m] (s : Scalars) (document : Option Json) : ExceptT GenerationError m Settings :=
  match document.bind (read s) with
  | some settings => pure settings
  | none => throw (.document .malformed)

/-- What a point in time is in a document with strict scalars: nothing that any key takes. -/
def strictMoment (s : String) : Json := .object [("moment", .text s)]

/-- Reads a file as a document with strict scalars. -/
def readStrict [Monad m] (fs : FileAccess m) (path : String) : ExceptT GenerationError m (Option Json) := do
  pure (Toml.parse? strictMoment (← FileAccess.attempt .file (fs.read path)))

/-- Reads settings from a file with strict scalars. -/
def ofFile [Monad m] (fs : FileAccess m) (path : String) : ExceptT GenerationError m Settings := do
  ofDocument .strict (← readStrict fs path)

/-- The file that settings are read from if none is named. -/
def defaultFile : String := "mapgen-codegen"

/-- Reads settings from a file of any format with loose scalars. Without a path the default file is read, if
there is one. -/
def load [Monad m] (fs : FileAccess m) (path : Option String) : ExceptT GenerationError m Settings := do
  match path with
  | some path => ofDocument .loose (some (← Document.loadRequired fs path))
  | none => ofDocument .loose (some ((← Document.load fs defaultFile).getD (.object [])))

/-- Reads the configurations of the tables. -/
def loadTables [Monad m] (fs : FileAccess m) (path : String) :
    ExceptT GenerationError m (KeyMap ConfigEntry) := do
  match ConfigEntry.readAll .loose (← Document.loadRequired fs path) with
  | some entries => pure entries
  | none => throw (.document .malformed)

/-- The schema that settings name: a script before a database. -/
def openSchema [Monad m] (fs : FileAccess m) (s : Settings) : ExceptT GenerationError m Schema := do
  match s.schemaFile, s.databaseUrl with
  | some path, _ =>
    let script ← FileAccess.attempt .file (fs.read path)
    ExceptT.mk (pure ((readScript script).map Schema.ofTables))
  | none, some url => ExceptT.mk (pure (DatabaseUrl.connect url))
  | none, none => throw (.settings .noSchema)

/-- Generates code for configurations, or for one of them only. -/
def generate [PatternEngine] [Monad m] (format : String → String) (fs : FileAccess m) (schema : Schema)
    (entries : KeyMap ConfigEntry) (filter : Option String) (s : Settings) : m (Warned Report) := do
  let wide := Resolution.resolveWide s.danglingJoins (some s.outputRoot) filter entries
  let result ← ExceptT.run do
    let wide ← ExceptT.mk (pure wide.result)
    if s.dryRun then Generation.run Sink.ignoring schema (wide.keepOnly filter) s.emit
    else
      Resolution.createAll fs wide.directories
      Generation.run (Sink.toFiles format fs) schema (wide.keepOnly filter) s.emit
  pure ⟨wide.warnings, result⟩

/-- Runs a generation as settings say. -/
def run [PatternEngine] [Monad m] (format : String → String) (fs : FileAccess m) (s : Settings) : m (Warned Report) := do
  let inputs ← ExceptT.run do
    s.validate fs
    let entries ← loadTables fs s.tablesFile
    let schema ← s.openSchema fs
    pure (entries, schema)
  match inputs with
  | .error e => pure ⟨[], .error e⟩
  | .ok (entries, schema) => generate format fs schema entries s.table s

end TableMapper.Settings
