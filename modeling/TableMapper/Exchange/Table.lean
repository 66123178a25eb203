import TableMapper.Code.Generation
import TableMapper.Exchange.Value

/-! # Tables in JSON

Columns, rules and models of tables, and what is generated for them.
-/

namespace TableMapper

instance : OfDocument SchemaColumn where
  ofDocument? j := do
    let key : Option String ← j.read? "key"
    let extra : Option String ← j.read? "extra"
    pure { name := ← j.read? "field", type := ← j.read? "type", nullable := ← j.read? "nullable"
           key := .ofName (key.getD ""), defaultText := ← j.read? "default", extra := extra.getD "" }

instance : ToDocument SchemaColumn where
  toDocument c := .ofMembers
    [("field", c.name), ("type", c.type), ("nullable", c.nullable), ("key", c.key.name),
     ("default", c.defaultText), ("extra", c.extra), ("primary", c.isPrimary), ("auto", c.isAutoIncrement)]

/-- The columns of tables are the members of an object. -/
instance [OfDocument α] : OfDocument (KeyMap α) where
  ofDocument?
    | .object members =>
      (members.mapM fun (member : String × Json) => (ofDocument? member.2).map (member.1, ·)).map .ofList
    | _ => none

instance [ToDocument α] : ToDocument (KeyMap α) where
  toDocument m := .object (m.toList.map fun (key, a) => (key, toDocument a))

instance : ToDocument RuleOptions where
  toDocument o := .ofMembers
    [("min", o.least.map toString), ("max", o.greatest.map toString), ("preset", o.preset.map Preset.name),
     ("pattern", o.pattern), ("hostname", o.hostname), ("allow_null", o.allowNull)]

instance : ToDocument FieldRule where
  toDocument r := .ofMembers [("kind", r.kind.name), ("options", r.options)]

def DeclaredJoin.members (j : DeclaredJoin) : List (String × Json) :=
  [("alias", j.label), ("target", j.target), ("relation", j.relation.name), ("type", j.type.sql),
   ("local", [j.localAlias, j.localField]), ("remote", [j.remoteAlias, j.remoteField])]

instance : ToDocument DeclaredJoin := ⟨fun j => .ofMembers j.members⟩

/-- A linked join shows how many joins its target has: none, so that links end. -/
instance : ToDocument LinkedJoin where
  toDocument j := .ofMembers
    (j.toDeclaredJoin.members.append [("target_table", j.model.table), ("target_joins", (0 : Nat))])

/-- The members of a model whose joins are linked as given. -/
def TableModel.members (m : TableModel) (joins : List LinkedJoin) : List (String × Json) :=
  let places := Artifact.all.map m.place
  [("name", m.name), ("author", m.author), ("copyright", m.copyright), ("classname", m.className),
   ("table", m.table), ("prefixes", m.prefixes), ("cache_prefix", m.cacheStart),
   ("cache_enabled", m.cacheEnabled), ("validation", m.rules),
   ("namespaces", places.map fun place => place.map (·.module)),
   ("paths", places.map fun place => place.map (·.directory)), ("repository", m.repository.isSome),
   ("entity_type", m.entityType), ("mapper_name", m.mapperName), ("repository_name", m.repositoryName),
   ("declared", m.declaredJoins), ("joins", joins)]

instance : ToDocument TableModel := ⟨fun m => .ofMembers (m.members [])⟩

instance : ToDocument CodeField where
  toDocument f := .ofMembers
    [("column", f.column), ("name", f.name), ("plain", f.plainName), ("kind", f.type.kind.name),
     ("nullable", f.nullable), ("primary", f.primary), ("auto", f.autoIncrement),
     ("rust", f.fieldType.spelling), ("rule", f.rule)]

/-- The members of a table of generated code. -/
def CodeTable.members (t : CodeTable) : List (String × Json) :=
  [("fields", t.fields), ("primary", t.primaryFields.map (·.column)), ("class", t.className),
   ("module", t.moduleName), ("auto", t.autoIncrementField.map (·.column))]

instance : ToDocument Report where
  toDocument r := .ofMembers [("tables", r.tables), ("files", r.files)]

instance : ToDocument GeneratedFile := ⟨fun f => .array [f.path, f.contents]⟩

instance : ToDocument Warning := ⟨fun w => w.message⟩

end TableMapper
