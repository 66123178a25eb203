import TableMapper.Code.Generation
import TableMapper.Config.Document

/-! # Settings of a run

Where the configurations and the columns of tables come from, what is generated, and where it goes.
-/

namespace TableMapper

/-- The settings of a run. -/
structure Settings where
  /-- The file with the configurations of the tables. -/
  tablesFile : String := "mapgen-tables.yaml"
  /-- The script that describes the tables. -/
  schemaFile : Option String := none
  /-- The database that describes the tables. -/
  databaseUrl : Option String := none
  /-- The only configuration to generate code for. -/
  table : Option String := none
  outputRoot : String := "."
  emit : EmitOptions := {}
  danglingJoins : DanglingPolicy := .ignore
  /-- Whether files are only named and not written. -/
  dryRun : Bool := false
  logLevel : Option String := none
  deriving DecidableEq, Repr

namespace Settings

/-- Has tables described by a script and by nothing else. -/
def withSchemaFile (s : Settings) (path : String) : Settings :=
  { s with schemaFile := some path, databaseUrl := none }

/-- Has tables described by a database and by nothing else. -/
def withDatabase (s : Settings) (url : String) : Settings :=
  { s with databaseUrl := some url, schemaFile := none }

/-- Leaves out mappers and repositories. -/
def entitiesOnly (s : Settings) : Settings :=
  { s with emit := { s.emit with mappers := false, repositories := false } }

/-- Leaves out entities and repositories. -/
def mappersOnly (s : Settings) : Settings :=
  { s with emit := { s.emit with entities := false, repositories := false } }

/-- Leaves out repositories. -/
def withoutRepositories (s : Settings) : Settings :=
  { s with emit := { s.emit with repositories := false } }

/-- The keys of settings in documents. -/
def keys : List String :=
  ["tables_file", "schema_file", "database_url", "table", "output_root", "generate_entities",
   "generate_mappers", "generate_repositories", "dangling_joins", "dry_run", "log_level"]

/-- The members of settings. A list may leave out values at its end. -/
def membersOf : Json → Option (List (String × Json))
  | .object members => some members
  | .array items => if items.length ≤ keys.length then some (keys.zip items) else none
  | _ => none

/-- Reads a policy by its exact name. -/
def readPolicy : Json → Option DanglingPolicy
  | .text name => DanglingPolicy.ofExactName? name
  | _ => none

/-- Reads settings. What is missing has its default. -/
def read (s : Scalars) (j : Json) : Option Settings := do
  let members ← membersOf j
  let plain : Settings := {}
  let tablesFile ← sectionOr s.text? plain.tablesFile members "tables_file"
  let schemaFile ← optional s.text? members "schema_file"
  let databaseUrl ← optional s.text? members "database_url"
  let table ← optional s.text? members "table"
  let outputRoot ← sectionOr s.text? plain.outputRoot members "output_root"
  let entities ← sectionOr s.bool? plain.emit.entities members "generate_entities"
  let mappers ← sectionOr s.bool? plain.emit.mappers members "generate_mappers"
  let repositories ← sectionOr s.bool? plain.emit.repositories members "generate_repositories"
  let danglingJoins ← sectionOr readPolicy plain.danglingJoins members "dangling_joins"
  let dryRun ← sectionOr s.bool? plain.dryRun members "dry_run"
  let logLevel ← optional s.text? members "log_level"
  pure { tablesFile, schemaFile, databaseUrl, table, outputRoot, danglingJoins, dryRun, logLevel
         emit := { entities, mappers, repositories } }

end Settings

end TableMapper
