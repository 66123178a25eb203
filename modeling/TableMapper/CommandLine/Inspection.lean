import TableMapper.Code.Generation

/-! # Inspection

What a run would work with, in words: the configurations, where their files go, their columns with the types of
their fields, and their joins. What was written before a failure stays.
-/

namespace TableMapper.Inspection

/-- A list of texts in quotes. -/
def quotedList (l : List String) : String :=
  "[" ++ ", ".intercalate (l.map Text.Quoted.encode) ++ "]"

/-- A model before its columns. -/
def header (r : Resolution) (m : TableModel) : List String :=
  let prefixes := if m.prefixes.isEmpty then [] else ["  Prefixes: " ++ quotedList m.prefixes]
  let places := Artifact.all.filterMap fun a => do
    let place ← m.place a
    let directory ← r.artifactDirectory m a
    pure ("  " ++ a.name ++ ": " ++ place.module ++ " -> " ++ directory)
  let caching := if m.cacheEnabled then "enabled" else "disabled"
  [s!"Config: {m.name} ({m.className})", s!"  Table: {m.table}"] ++ prefixes ++
    [s!"  Cache: {m.cacheStart} ({caching})"] ++ places

def column (f : CodeField) : List String :=
  let key := if f.primary then " PRIMARY" else ""
  let numbered := if f.autoIncrement then " AUTO_INCREMENT" else ""
  let values := if f.type.members.isEmpty then [] else ["      values: " ++ quotedList f.type.members]
  let rule := match f.rule with
    | some rule => ["      validation: " ++ rule.kind.name]
    | none => []
  [s!"    - {f.column} {f.type.kind.name} -> {f.name}: {f.fieldType.spelling}{key}{numbered}"] ++ values ++
    rule

def join (j : LinkedJoin) : String :=
  s!"    - {j.label} -> {j.model.name} ({j.relation.name}, {j.type.sql}) ON " ++
    s!"{j.localAlias}.{j.localField} = {j.remoteAlias}.{j.remoteField}"

/-- The columns and joins of a table. -/
def body (t : CodeTable) : List String :=
  let joins := if t.model.joins.isEmpty then [] else "  Joins:" :: t.model.joins.map join
  "  Columns:" :: t.fields.flatMap column ++ joins ++ [""]

/-- The lines for models in order, and why they end early. -/
def models (schema : Schema) (r : Resolution) :
    List LinkedModel → List String × Except GenerationError Unit
  | [] => ([], .ok ())
  | m :: rest =>
    let start := header r m.toTableModel
    match (schema m.table).bind (CodeTable.build m) with
    | .error e => (start, .error e)
    | .ok t =>
      let (lines, result) := models schema r rest
      (start ++ body t ++ lines, result)

/-- The lines for a resolution, and why they end early. -/
def lines (schema : Schema) (r : Resolution) : List String × Except GenerationError Unit :=
  let (lines, result) := models schema r r.models.values
  ([s!"Resolved {r.models.size} configurations:", ""] ++ lines, result)

end TableMapper.Inspection
