import TableMapper.Code.Repository

/-! # Mapper sources

The source of the mapper of a table: look-ups by key, queries, writes, and one pair of methods for each
join.
-/

namespace TableMapper.Code

open Text.Quoted (encode)

/-- The name of the method that looks up by the primary key. -/
def findByPrimaryName (primary : List CodeField) : String := findByName (primary.map (·.plainName))

/-- The key as a list of columns with values, each value written in a given way. -/
def keyPairs (primary : List CodeField) (lend : String) : String :=
  commas (primary.map fun f => s!"({encode f.column}, mapgen::ToValue::to_value({lend}{f.name}))")

/-- The mapper type itself. -/
def mapperType (t : CodeTable) : Lines :=
  ("/// Data access for table " ++ ticked t.model.table ++ ".") ::
    block s!"pub struct {t.model.mapperName}<E: mapgen::Executor>"
      ["executor: E,", "cache: Option<Arc<dyn mapgen::Cache>>,"]

def mapperConstants (t : CodeTable) : Lines :=
  [s!"pub const TABLE: &'static str = {encode t.model.table};",
   s!"pub const CACHE_PREFIX: &'static str = {encode t.model.cacheStart};",
   s!"pub const CACHE_ENABLED: bool = {t.model.cacheEnabled};"]

/-- The methods that every mapper has first. -/
def basicMethods (name : String) : List Method :=
  [{ name := "new", parameters := ["executor: E"], result := some "Self"
     body := block "Self" ["executor,", "cache: None,"] },
   { doc := ["Use \x60cache\x60 for primary key lookups; ignored unless caching is", "enabled for the table."]
     name := "with_cache", parameters := ["mut self", "cache: Arc<dyn mapgen::Cache>"]
     result := some "Self", body := ["self.cache = Some(cache);", "self"] },
   { name := "executor", parameters := ["&self"], result := some "&E", body := ["&self.executor"] },
   { doc := ["\x60SELECT\x60 of every column, ready for more clauses."]
     name := "query", parameters := ["&self"], result := some "mapgen::QueryBuilder"
     body := [s!"mapgen::mapper::base_query::<{name}>()"] }]

/-- The methods that look up by the primary key, through the cache. -/
def keyMethods (name : String) (primary : List CodeField) : List Method :=
  [{ kind := "fn", name := "cache", parameters := ["&self"], result := some "Option<&dyn mapgen::Cache>"
     body :=
       ["if Self::CACHE_ENABLED \x7b", "    self.cache.as_deref()", "\x7d else \x7b", "    None", "\x7d"] },
   { kind := "fn", name := "cache_key", parameters := ["key_values: &[(&'static str, mapgen::Value)]"]
     result := some "String"
     body :=
       ["mapgen::cache_key(", "    Self::CACHE_PREFIX,",
        "    key_values.iter().map(|(_, value)| value.to_key_string()),", ")"] },
   { doc := ["Find by primary key, through the cache when enabled."]
     kind := "pub async fn", name := findByPrimaryName primary, parameters := "&self" :: keyParameters primary
     result := some s!"mapgen::Result<Option<{name}>>"
     body :=
       ["let key_values = vec![" ++ keyPairs primary "&" ++ "];",
        "let key = Self::cache_key(&key_values);",
        "let mut qb = self.query();",
        s!"mapgen::mapper::add_primary_key::<{name}>(&mut qb, key_values)?;",
        s!"mapgen::mapper::fetch_one_cached::<{name}, _>(&self.executor, self.cache(), &key, &qb).await"] }]

/-- The methods that select rows. -/
def selectMethods (name : String) : List Method :=
  [{ kind := "pub async fn", name := "find_all", parameters := ["&self"]
     result := some s!"mapgen::Result<Vec<{name}>>"
     body := ["mapgen::mapper::fetch_all(&self.executor, &self.query()).await"] },
   { kind := "pub async fn", name := "select", parameters := ["&self", "qb: &mapgen::QueryBuilder"]
     result := some s!"mapgen::Result<Vec<{name}>>"
     body := ["mapgen::mapper::fetch_all(&self.executor, qb).await"] },
   { kind := "pub async fn", name := "select_one", parameters := ["&self", "qb: &mapgen::QueryBuilder"]
     result := some s!"mapgen::Result<Option<{name}>>"
     body := ["mapgen::mapper::fetch_one(&self.executor, qb).await"] },
   { doc := ["Rows keyed by the builder's list-index field."]
     kind := "pub async fn", name := "select_indexed", parameters := ["&self", "qb: &mapgen::QueryBuilder"]
     tall := true, result := some s!"mapgen::Result<BTreeMap<String, {name}>>"
     body := ["mapgen::mapper::fetch_indexed(&self.executor, qb).await"] },
   { kind := "pub async fn", name := "count", parameters := ["&self", "qb: &mapgen::QueryBuilder"]
     result := some "mapgen::Result<u64>"
     body := ["mapgen::mapper::count(&self.executor, qb).await"] },
   { doc := ["One page of \x60qb\x60 plus the total matching rows ignoring its LIMIT."]
     kind := "pub async fn", name := "select_with_found_rows"
     parameters := ["&self", "qb: &mapgen::QueryBuilder"]
     tall := true, result := some s!"mapgen::Result<(Vec<{name}>, u64)>"
     body := ["mapgen::mapper::fetch_all_with_found_rows(&self.executor, qb).await"] }]

/-- Pieces as a tuple, or the one piece alone. -/
def tuple : List String → String
  | [piece] => piece
  | pieces => "(" ++ commas pieces ++ ")"

/-- The method that looks up by several keys at once. -/
def findByKeysMethod (name : String) (primary : List CodeField) : Method :=
  { doc := ["Rows matching any of \x60keys\x60."]
    kind := "pub async fn", name := "find_by_keys"
    parameters := ["&self", "keys: &[" ++ tuple (primary.map (·.fieldType.spelling)) ++ "]"]
    result := some s!"mapgen::Result<Vec<{name}>>"
    body :=
      block "if keys.is_empty()" ["return Ok(Vec::new());"] ++
        ["let mut qb = self.query();",
         "qb.add_where_keys(keys.iter().map(|" ++ tuple (primary.map (·.name)) ++ "| [" ++
           keyPairs primary "" ++ "]))?;",
         "mapgen::mapper::fetch_all(&self.executor, &qb).await"] }

/-- The method that inserts an entity. -/
def insertMethod (name : String) : Method :=
  { doc := ["Insert \x60entity\x60, storing the generated id back into it."]
    kind := "pub async fn", name := "insert", parameters := ["&self", s!"entity: &mut {name}"]
    result := some "mapgen::Result<mapgen::ExecuteResult>"
    body := ["mapgen::mapper::insert(&self.executor, entity).await"] }

/-- The methods that write rows by key and take them out of the cache. -/
def keyedWriteMethods (name : String) : List Method :=
  let write := fun (method : String) =>
    { kind := "pub async fn", name := method, parameters := ["&self", s!"entity: &{name}"]
      result := some "mapgen::Result<u64>"
      body :=
        [s!"let affected = mapgen::mapper::{method}(&self.executor, entity).await?;",
         "self.invalidate(entity);", "Ok(affected)"] : Method }
  [{ doc := ["Insert \x60entity\x60, or update every non-key column when the key exists."]
     kind := "pub async fn", name := "upsert", parameters := ["&self", s!"entity: &mut {name}"]
     result := some "mapgen::Result<mapgen::ExecuteResult>"
     body :=
       ["let result = mapgen::mapper::upsert(&self.executor, entity).await?;",
        "self.invalidate(entity);", "Ok(result)"] },
   write "update", write "delete",
   { kind := "fn", name := "invalidate", parameters := ["&self", s!"entity: &{name}"], result := none
     body := block "if let Some(cache) = self.cache()"
       ["cache.delete(&Self::cache_key(&mapgen::Entity::primary_key_values(entity)));"] }]

/-- The expression for the name that a column is selected under for a join. The label is part of the template
as it is: what it has of quotes, backslashes and braces is not kept from its meaning there. -/
def labelExpression (label : String) : String := "format!(\"" ++ label ++ "__\x7b\x7d\", column)"

/-- The methods for a join: one that adds it to a query, and one that selects with it. -/
def joinMethods (name : String) (join : LinkedJoin) : List Method :=
  let method := plainName join.label
  let target := join.model.entityType
  let (joined, split) :=
    match join.relation with
    | .one => (s!"Option<{target}>", "split_joined")
    | .many => (s!"Vec<{target}>", "group_joined")
  [{ doc :=
       ["Join " ++ ticked join.label ++ " (" ++ join.relation.name ++ ", " ++ ticked join.model.table ++ " AS " ++
          ticked join.remoteAlias ++ "), selecting its",
        "columns as " ++ ticked (join.label ++ "__<column>") ++ "."]
     name := "join_" ++ method, parameters := ["qb: &mut mapgen::QueryBuilder"]
     result := some "&mut mapgen::QueryBuilder"
     body :=
       ["qb.add_join(",
        s!"    mapgen::Join::new(mapgen::JoinType::{join.type.label}, " ++
          s!"{encode join.model.table}, {encode join.remoteAlias})",
        s!"        .on({encode join.localAlias}, {encode join.localField}, {encode join.remoteField}),",
        ");"] ++
       block s!"for column in <{target} as mapgen::FromRow>::column_names()"
         ["qb.add_field(",
          "    mapgen::Field::new(*column)",
          s!"        .table({encode join.remoteAlias})",
          s!"        .alias({labelExpression join.label}),",
          ");"] ++
       ["qb"] },
   { kind := "pub async fn", name := "select_with_" ++ method, parameters := ["&self", "qb: &mapgen::QueryBuilder"]
     tall := true, result := some s!"mapgen::Result<Vec<({name}, {joined})>>"
     body :=
       ["let mut qb = qb.clone();",
        s!"Self::join_{method}(&mut qb);",
        "let rows = mapgen::mapper::fetch_rows(&self.executor, &qb).await?;",
        s!"mapgen::mapper::{split}(&rows, {encode join.label})"] }]

/-- The methods of the mapper type. -/
def mapperMethods (t : CodeTable) : List Method :=
  let name := t.className
  let primary := t.primaryFields
  basicMethods name ++
    (if primary.isEmpty then [] else keyMethods name primary) ++
    selectMethods name ++
    (if primary.isEmpty then [] else [findByKeysMethod name primary]) ++
    [insertMethod name] ++
    (if primary.isEmpty then [] else keyedWriteMethods name) ++
    t.model.joins.flatMap (joinMethods name)

/-- How a mapper fulfils the repository of its table. -/
def repositoryImpl (t : CodeTable) : Lines :=
  let mapper := t.model.mapperName
  let home :=
    match t.model.repository with
    | some place => place.module
    | none => "crate"
  let methods := (repositoryMethods t).map fun m =>
    let call :=
      if m.name = "find_by_pk" then
        findByPrimaryName t.primaryFields ++ "(self, " ++ commas (t.primaryFields.map (·.name)) ++ ")"
      else if m.parameters.length = 1 then m.name ++ "(self)"
      else m.name ++ "(self, entity)"
    { m with body := [s!"{mapper}::<E>::{call}.await"] }
  "#[mapgen::async_trait]" ::
    block s!"impl<E: mapgen::Executor> {home}::{t.model.repositoryName} for {mapper}<E>"
      (spaced (methods.map Method.lines))

/-- The source of a mapper; `withRepository` says whether it fulfils a repository. -/
def mapperSource (t : CodeTable) (withRepository : Bool) : String :=
  let methods := block s!"impl<E: mapgen::Executor> {t.model.mapperName}<E>"
    (spaced (mapperConstants t :: (mapperMethods t).map Method.lines))
  text (t.header "Mapper" ++
    spaced
      ([["use std::collections::BTreeMap;", "use std::sync::Arc;"],
        [s!"use {t.model.entity.module}::{t.className};"], mapperType t, methods] ++
       (if withRepository then [repositoryImpl t] else [])))

end TableMapper.Code
