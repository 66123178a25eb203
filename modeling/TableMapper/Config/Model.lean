import TableMapper.Config.Entry
import TableMapper.Config.Fault
import TableMapper.Pattern.Engine
import TableMapper.Query.Operator
import TableMapper.Rule.Basic

/-! # Configurations of tables

A checked configuration: everything that the code generated for a table depends on, apart from its columns.
`TableModel.build` checks an entry and says at which key it fails.
-/

namespace TableMapper

/-- The kinds of generated file. -/
inductive Artifact where
  | entity | mapper | repository
  deriving DecidableEq, Repr

namespace Artifact

/-- Every kind. -/
def all : List Artifact := [entity, mapper, repository]

/-- The name of a kind. -/
def name : Artifact → String
  | entity => "entity"
  | mapper => "mapper"
  | repository => "repository"

end Artifact

/-- How many rows of a joined table belong to one row. -/
inductive Relation where
  | one | many
  deriving DecidableEq, Repr

namespace Relation

def name : Relation → String
  | one => "one"
  | many => "many"

/-- A name as it is compared, and as complaints show it. -/
def plain (s : String) : String := (Text.trim s).toLower

/-- The relation of a given name, in any case. -/
def ofName? (s : String) : Option Relation :=
  let name := plain s
  if ["one", "has_one", "belongs_to"].contains name then some one
  else if ["many", "has_many"].contains name then some many
  else none

end Relation

structure FieldRule where
  kind : RuleKind
  options : RuleOptions
  deriving DecidableEq, Repr

/-- A join whose target is the name of a configuration. -/
structure DeclaredJoin where
  label : String
  target : String
  relation : Relation
  type : JoinType
  localAlias : String
  localField : String
  remoteAlias : String
  remoteField : String
  deriving DecidableEq, Repr

/-- Where generated files of one kind go: the module they are part of, and their directory. -/
structure ArtifactPlace where
  module : String
  directory : String
  deriving DecidableEq, Repr

/-- The checked configuration of a table. -/
structure TableModel where
  name : String
  author : String
  copyright : String
  className : String
  table : String
  /-- What the names of columns may start with and fields leave out. -/
  prefixes : List String
  /-- The start of cache keys, as configured. -/
  cachePrefix : String
  cacheEnabled : Bool
  entity : ArtifactPlace
  mapper : ArtifactPlace
  repository : Option ArtifactPlace
  rules : KeyMap FieldRule
  /-- The joins in the order of their aliases. -/
  declaredJoins : List DeclaredJoin

/-- A text without blanks around it, unless it is blank. -/
def written? (value : Option String) : Option String :=
  (value.map Text.trim).filter fun s => !s.isEmpty

/-- The text at a key that must have one. -/
def required (config key : String) (value : Option String) : Except ConfigFault String :=
  match written? value with
  | some s => .ok s
  | none => .error ⟨config, key, .required⟩

namespace FieldRule

/-- The options of a kind of rule where nothing is written. -/
def defaultOptions (kind : RuleKind) : RuleOptions := { hostname := kind == .email }

/-- A preset as written. -/
def preset (config key : String) : Option String → Except ConfigFault (Option Preset)
  | none => .ok none
  | some name =>
    match Preset.ofName? name with
    | some preset => .ok (some preset)
    | none => .error ⟨config, key, .unknownPreset name⟩

/-- A pattern as written. -/
def pattern [PatternEngine] (config key : String) : Option String → Except ConfigFault (Option String)
  | none => .ok none
  | some text =>
    match PatternEngine.compile text with
    | .ok _ => .ok (some text)
    | .error complaint => .error ⟨config, key, .badPattern complaint⟩

/-- The rule that an entry with options states. -/
def ofSpec [PatternEngine] (config field : String) (spec : RuleSpec) : Except ConfigFault FieldRule := do
  let key := fun (name : String) => "validation." ++ field ++ "." ++ name
  let kind ←
    match spec.kind with
    | none => .error ⟨config, key "type", .required⟩
    | some name =>
      match RuleKind.ofName? name with
      | some kind => .ok kind
      | none => .error ⟨config, key "type", .unknownRule name⟩
  let preset ← preset config (key "preset") spec.preset
  let pattern ← pattern config (key "pattern") spec.pattern
  if kind = .regexp ∧ pattern = none then .error ⟨config, key "pattern", .required⟩
  let defaults := defaultOptions kind
  .ok ⟨kind,
    { least := spec.least, greatest := spec.greatest, preset, pattern,
      hostname := spec.hostname.getD defaults.hostname
      allowNull := spec.allowNull.getD defaults.allowNull }⟩

/-- The rule that an entry states. -/
def build [PatternEngine] (config field : String) : RuleEntry → Except ConfigFault FieldRule
  | .kind name =>
    match RuleKind.ofName? name with
    | some kind => .ok ⟨kind, defaultOptions kind⟩
    | none => .error ⟨config, "validation." ++ field, .unknownRule name⟩
  | .detailed spec => ofSpec config field spec

end FieldRule

namespace DeclaredJoin

/-- A relation as written; there is one row unless something else is written. -/
def relationOf (config key : String) : Option String → Except ConfigFault Relation
  | none => .ok .one
  | some name =>
    match Relation.ofName? name with
    | some relation => .ok relation
    | none => .error ⟨config, key, .unknownRelation (Relation.plain name)⟩

/-- A join type as written; joins are inner joins unless something else is written. -/
def typeOf (config key : String) : Option String → Except ConfigFault JoinType
  | none => .ok .inner
  | some name =>
    match JoinType.ofName? name with
    | some type => .ok type
    | none => .error ⟨config, key, .unknownJoinType name⟩

/-- The join that an entry states for a table. Its own side is the table unless an alias is written, the
other side goes by the alias of the join. -/
def build (config table label : String) (entry : JoinEntry) : Except ConfigFault DeclaredJoin := do
  let key := fun (name : String) => "joins." ++ label ++ "." ++ name
  let target ← required config (key "config") entry.config
  let localField ← required config (key "local_field") entry.localField
  let remoteField ← required config (key "remote_field") entry.remoteField
  let relation ← relationOf config (key "relation") entry.relation
  let type ← typeOf config (key "type") entry.type
  .ok { label, target, relation, type, localField, remoteField
        localAlias := (written? entry.localAlias).getD table
        remoteAlias := (written? entry.remoteAlias).getD label }

end DeclaredJoin

namespace TableModel

/-- Whether a name is an identifier of ASCII letters, digits and underscores. -/
def isTypeName (name : String) : Bool :=
  match name.toList with
  | [] => false
  | c :: cs => (c.isAlpha || c == '_') && cs.all fun c => c.isAlphanum || c == '_'

/-- The place of repositories: both keys are written, or none. -/
def repositoryPlace (config : String) (module directory : Option String) :
    Except ConfigFault (Option ArtifactPlace) :=
  match written? module, written? directory with
  | some module, some directory => .ok (some ⟨module, directory⟩)
  | none, none => .ok none
  | some _, none => .error ⟨config, "path.repository", .requiredWithOther⟩
  | none, some _ => .error ⟨config, "namespace.repository", .requiredWithOther⟩

/-- The prefixes of columns that are not blank. -/
def writtenPrefixes (entry : Option OneOrMany) : List String :=
  (((entry.map OneOrMany.toList).getD []).map Text.trim).filter fun s => !s.isEmpty

/-- The rules of the fields, in the order of the fields. -/
def buildRules [PatternEngine] (config : String) :
    List (String × RuleEntry) → Except ConfigFault (List (String × FieldRule))
  | [] => .ok []
  | (field, entry) :: rest => do
    let rule ← FieldRule.build config field entry
    let rules ← buildRules config rest
    .ok ((field, rule) :: rules)

/-- The joins in the order of their aliases. -/
def buildJoins (config table : String) :
    List (String × JoinEntry) → Except ConfigFault (List DeclaredJoin)
  | [] => .ok []
  | (label, entry) :: rest => do
    let join ← DeclaredJoin.build config table label entry
    let joins ← buildJoins config table rest
    .ok (join :: joins)

/-- Checks the configuration of a table. -/
def build [PatternEngine] (name : String) (entry : ConfigEntry) : Except ConfigFault TableModel := do
  let author ← required name "comment.author" entry.author
  let copyright ← required name "comment.copyright" entry.copyright
  let className ← required name "class.classname" entry.className
  let table ← required name "database.table" entry.table
  let cachePrefix ← required name "cache.prefix" entry.cachePrefix
  let entityModule ← required name "namespace.entity" entry.namespaces.entity
  let mapperModule ← required name "namespace.mapper" entry.namespaces.mapper
  let entityPath ← required name "path.entity" entry.paths.entity
  let mapperPath ← required name "path.mapper" entry.paths.mapper
  let repository ← repositoryPlace name entry.namespaces.repository entry.paths.repository
  let rules ← buildRules name entry.rules.toList
  let declaredJoins ← buildJoins name table entry.joins.toList
  if !isTypeName className then .error ⟨name, "class.classname", .notTypeName className⟩
  .ok { name, author, copyright, className, table, cachePrefix, repository, declaredJoins
        prefixes := writtenPrefixes entry.prefixes
        cacheEnabled := entry.cacheEnabled.getD false
        entity := ⟨entityModule, entityPath⟩
        mapper := ⟨mapperModule, mapperPath⟩
        rules := .ofList rules }

/-- The start of the cache keys of a table: lower case, with dots for underscores. -/
def cacheStart (m : TableModel) : String := Text.replaceChar '_' "." (Text.lower m.cachePrefix)

/-- Where generated files of a kind go. -/
def place (m : TableModel) : Artifact → Option ArtifactPlace
  | .entity => some m.entity
  | .mapper => some m.mapper
  | .repository => m.repository

/-- The path of the entity type in generated code. -/
def entityType (m : TableModel) : String := m.entity.module ++ "::" ++ m.className

/-- The name of the mapper type. -/
def mapperName (m : TableModel) : String := m.className ++ "Mapper"

/-- The name of the repository type. -/
def repositoryName (m : TableModel) : String := m.className ++ "Repository"

/-- The name of a column without the first prefix that it starts with, and without an underscore behind
the prefix. A name is kept whole if nothing would be left of it. -/
def stripPrefix (m : TableModel) (column : String) : String :=
  let rests := m.prefixes.filterMap fun start =>
    (Text.dropPrefix? start column).map fun rest => (Text.dropPrefix? "_" rest).getD rest
  (rests.find? fun rest => !rest.isEmpty).getD column

end TableModel

end TableMapper
