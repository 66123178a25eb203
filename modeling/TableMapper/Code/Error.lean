import TableMapper.Column.Type
import TableMapper.Config.Fault
import TableMapper.Error
import TableMapper.Files.Fault

/-! # What can go wrong while code is generated

Everything that can keep code from being generated, by cause. `GenerationError.message` puts causes into
words.
-/

namespace TableMapper

/-- Why settings are refused. -/
inductive SettingsFault where
  | noTablesFile
  | tablesFileMissing (path : String)
  | noSchema
  | twoSchemas
  | schemaFileMissing (path : String)
  | nothingToGenerate
  deriving DecidableEq, Repr

/-- A fault of settings in words. -/
def SettingsFault.message : SettingsFault → String
  | .noTablesFile => "tables_file is required"
  | .tablesFileMissing path => "Tables file not found: " ++ path
  | .noSchema => "either schema_file or database_url is required"
  | .twoSchemas => "schema_file and database_url are mutually exclusive"
  | .schemaFileMissing path => "Schema file not found: " ++ path
  | .nothingToGenerate =>
    "at least one of generate_entities, generate_mappers and generate_repositories must be true"

/-- Why a document that configures a run cannot be used. -/
inductive DocumentFault where
  /-- A file that cannot be read as what it should be. -/
  | malformed
  | noManifestDirectory
  | noMetadata
  | noTablesFile
  | noSchemaFile
  | noOutputDirectory
  deriving DecidableEq, Repr

/-- A fault of a document in words. -/
def DocumentFault.message : DocumentFault → String
  | .malformed => "malformed document"
  | .noManifestDirectory => "CARGO_MANIFEST_DIR not set - are you running from build.rs?"
  | .noMetadata => "Missing [package.metadata.mapgen-codegen] section in Cargo.toml"
  | .noTablesFile => "tables_file is required in [package.metadata.mapgen-codegen]"
  | .noSchemaFile => "schema_file is required in [package.metadata.mapgen-codegen]"
  | .noOutputDirectory => "OUT_DIR not set - are you running from build.rs?"

/-- Everything that can go wrong while code is generated. -/
inductive GenerationError where
  | config (fault : ConfigFault)
  | type (fault : TypeFault)
  | outputDirectory (path : String) (fault : FileFault)
  /-- A join to a configuration that there is none of. -/
  | danglingJoin (owner label target : String)
  | unknownTable (name : String)
  /-- A table that the schema does not have. -/
  | missingTable (table : String)
  /-- A schema that cannot be read. -/
  | schema
  | document (fault : DocumentFault)
  | settings (fault : SettingsFault)
  /-- A receiver of files that takes no more of them. -/
  | refused (reason : String)
  | file (fault : FileFault)
  /-- A failure of the database that describes the tables. -/
  | database (error : Error)
  deriving DecidableEq, Repr

/-- An error in words. -/
def GenerationError.message : GenerationError → String
  | .config fault => fault.message
  | .type (.unknown base) => "Unknown SQL type: " ++ base
  | .type (.invalid descriptor) => "Invalid SQL type: " ++ Text.Quoted.encode descriptor
  | .outputDirectory path fault => "Cannot create output directory " ++ path ++ ": " ++ fault.message
  | .danglingJoin owner label target =>
    "Join " ++ ticked label ++ " of " ++ ticked owner ++ " targets unknown configuration " ++ ticked target
  | .unknownTable name => "Unknown table configuration: " ++ name
  | .missingTable table => "Table not found in schema: " ++ table
  | .schema => "Failed to parse SQL schema"
  | .document fault => "Configuration error: " ++ fault.message
  | .settings fault => "Validation error: " ++ fault.message
  | .refused reason => "Validation error: " ++ reason
  | .file fault => "IO error: " ++ fault.message
  | .database error => "Database error: " ++ error.message

end TableMapper
