import TableMapper.Settings.Run

/-! # Runs from a package manifest

Settings may stand in a section of the manifest of a package. Their paths start from the directory of the
manifest; what is generated goes to the build directory unless they say otherwise.
-/

namespace TableMapper

/-- What a build tells about itself. -/
structure BuildEnvironment where
  manifestDirectory : Option String
  /-- The directory for what the build generates. -/
  outputDirectory : Option String

/-- The section of a manifest with settings. -/
structure ManifestSection where
  tablesFile : Option String
  schemaFile : Option String
  table : Option String
  outputRoot : Option String
  generateRepositories : Option Bool
  danglingJoins : Option DanglingPolicy

namespace ManifestSection

/-- The members of a section. -/
def read (j : Json) : Option ManifestSection := do
  let members ← sectionMembers
    ["tables_file", "schema_file", "table", "output_root", "generate_repositories", "dangling_joins"] j
  let tablesFile ← optional (Scalars.text? .strict) members "tables_file"
  let schemaFile ← optional (Scalars.text? .strict) members "schema_file"
  let table ← optional (Scalars.text? .strict) members "table"
  let outputRoot ← optional (Scalars.text? .strict) members "output_root"
  let generateRepositories ← optional (Scalars.bool? .strict) members "generate_repositories"
  let danglingJoins ← optional Settings.readPolicy members "dangling_joins"
  pure { tablesFile, schemaFile, table, outputRoot, generateRepositories, danglingJoins }

/-- Reads what is inside a section that may be missing. -/
def inside (key : String) (read : Json → Option (Option α)) (j : Json) : Option (Option α) := do
  let members ← sectionMembers [key] j
  pure (← optional read members key).join

/-- The section of a manifest, if it has one; a manifest with something of the wrong kind in a place is
refused. -/
def ofManifest (j : Json) : Option (Option ManifestSection) :=
  inside "package" (inside "metadata" (inside "mapgen-codegen" fun j => (read j).map some)) j

def required (path : Option String) (fault : DocumentFault) : Except GenerationError String :=
  match path with
  | some path => .ok path
  | none => .error (.document fault)

def settings (directory : String) (outputDirectory : Option String) (m : ManifestSection) :
    Except GenerationError Settings := do
  let tablesFile ← required m.tablesFile .noTablesFile
  let schemaFile ← required m.schemaFile .noSchemaFile
  let outputRoot ←
    match m.outputRoot with
    | some root => .ok (Path.join directory root)
    | none => required outputDirectory .noOutputDirectory
  let plain : Settings := { tablesFile := Path.join directory tablesFile, outputRoot, table := m.table }
  let described := plain.withSchemaFile (Path.join directory schemaFile)
  let chosen := if m.generateRepositories = some false then described.withoutRepositories else described
  .ok { chosen with danglingJoins := m.danglingJoins.getD .ignore }

end ManifestSection

namespace BuildEnvironment

/-- The line that tells a build to run again when a file changes. -/
def watchLine (path : String) : String := "cargo:rerun-if-changed=" ++ path

/-- Reads the settings of the manifest, and the lines for the build. -/
def settings [Monad m] (fs : FileAccess m) (b : BuildEnvironment) :
    ExceptT GenerationError m (Settings × List String) := do
  let directory ← ExceptT.mk (pure (ManifestSection.required b.manifestDirectory .noManifestDirectory))
  let manifest := Path.join directory "Cargo.toml"
  match (← Settings.readStrict fs manifest).bind ManifestSection.ofManifest with
  | none => throw (.document .malformed)
  | some none => throw (.document .noMetadata)
  | some (some found) =>
    let s ← ExceptT.mk (pure (found.settings directory b.outputDirectory))
    pure (s, [s.tablesFile, s.schemaFile.getD "", manifest].map watchLine)

/-- Runs a generation as the manifest says. The lines for the build come first. -/
def run [PatternEngine] [Monad m] (format : String → String) (fs : FileAccess m) (b : BuildEnvironment) :
    m (List String × Warned Report) := do
  match ← (b.settings fs).run with
  | .error e => pure ([], ⟨[], .error e⟩)
  | .ok (s, lines) => do pure (lines, ← s.run format fs)

end BuildEnvironment

end TableMapper
