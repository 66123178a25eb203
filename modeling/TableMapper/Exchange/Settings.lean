import TableMapper.Exchange.Table
import TableMapper.Files.Tree
import TableMapper.Settings.Basic

/-! # Settings, configurations and files in JSON

Settings and configurations are written with every key, those without a value included.
-/

namespace TableMapper

instance : ToDocument Settings where
  toDocument s := .ofMembers
    [("tables_file", s.tablesFile), ("schema_file", s.schemaFile), ("database_url", s.databaseUrl),
     ("table", s.table), ("output_root", s.outputRoot), ("generate_entities", s.emit.entities),
     ("generate_mappers", s.emit.mappers), ("generate_repositories", s.emit.repositories),
     ("dangling_joins", s.danglingJoins.name), ("dry_run", s.dryRun), ("log_level", s.logLevel)]

instance : ToDocument RuleSpec where
  toDocument r := .ofMembers
    [("type", r.kind), ("min", r.least), ("max", r.greatest), ("preset", r.preset), ("pattern", r.pattern),
     ("hostname", r.hostname), ("allow_null", r.allowNull)]

instance : ToDocument RuleEntry where
  toDocument
    | .kind name => name
    | .detailed spec => spec

instance : ToDocument JoinEntry where
  toDocument j := .ofMembers
    [("config", j.config), ("relation", j.relation), ("type", j.type), ("local_field", j.localField),
     ("local_alias", j.localAlias), ("remote_field", j.remoteField), ("remote_alias", j.remoteAlias)]

instance : ToDocument ArtifactEntries where
  toDocument a := .ofMembers
    [("entity", a.entity), ("mapper", a.mapper), ("repository", a.repository)]

instance : ToDocument OneOrMany where
  toDocument
    | .one s => s
    | .many l => l

instance : ToDocument ConfigEntry where
  toDocument c := .ofMembers
    [("comment", Json.ofMembers [("author", c.author), ("copyright", c.copyright)]),
     ("class", Json.ofMembers [("classname", c.className)]), ("namespace", c.namespaces),
     ("path", c.paths), ("cache", Json.ofMembers [("prefix", c.cachePrefix), ("enabled", c.cacheEnabled)]),
     ("database", Json.ofMembers [("table", c.table), ("prefix", c.prefixes)]), ("validation", c.rules),
     ("joins", c.joins)]

/-- What stands at a place below the working directory: a directory has a slash at its end, and of files only an index shows what it
holds. -/
def FileTree.listed (place : FileTree.Place) (node : FileNode) : Json :=
  let path := "/".intercalate place
  match node with
  | .directory => .array [path ++ "/", .null]
  | .file contents =>
    .array [path, if place.getLast? = some "mod.rs" then .text contents else .null]

/-- What there is below the working directory. -/
instance : ToDocument (FileTree here) where
  toDocument t := .array (t.nodes.filterMap fun (place, node) =>
    if here <+: place then some (FileTree.listed (place.drop here.length) node) else none)

end TableMapper
