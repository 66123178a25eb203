import TableMapper.Schema.Table
import TableMapper.Sql.Expression

/-! # Definitions of tables

How `CREATE TABLE` is read: columns with their options, constraints, and what may follow the closing
parenthesis.
-/

namespace TableMapper.Sql

open Reader

namespace CreateTable

/-- Takes names between parentheses. -/
def nameList : Reader Unit := do
  let _ ← parenthesized (commas identifier)

/-- Takes names between parentheses if they are there. -/
def nameList? : Reader Unit := do
  if ← nextIsSign "(" then nameList

/-- Takes what a foreign key does when its row is changed or deleted. -/
def referentialAction : Reader Unit := do
  let taken ← (do
    if ← keyword "RESTRICT" then pure true
    else if ← keyword "CASCADE" then pure true
    else if ← keywords ["SET", "NULL"] then pure true
    else if ← keywords ["NO", "ACTION"] then pure true
    else keywords ["SET", "DEFAULT"] : Reader Bool)
  unless taken do refuse

/-- Takes one of the rules of a foreign key. -/
def referenceRule : Reader (Option Unit) := do
  if ← keyword "MATCH" then
    match ← oneOf ["FULL", "PARTIAL", "SIMPLE"] with
    | some _ => pure (some ())
    | none => refuse
  else if ← keywords ["ON", "DELETE"] then do pure (some (← referentialAction))
  else if ← keywords ["ON", "UPDATE"] then do pure (some (← referentialAction))
  else pure none

/-- Takes when and whether a constraint is checked. -/
def timing : Reader (Option Unit) := do
  if ← keywords ["NOT", "DEFERRABLE"] then pure (some ())
  else if ← keyword "DEFERRABLE" then pure (some ())
  else if ← keywords ["INITIALLY", "DEFERRED"] then pure (some ())
  else if ← keywords ["INITIALLY", "IMMEDIATE"] then pure (some ())
  else if ← keywords ["NOT", "ENFORCED"] then pure (some ())
  else if ← keyword "ENFORCED" then pure (some ())
  else pure none

/-- Takes all of when and whether a constraint is checked. -/
def timings : Reader Unit := do
  let _ ← many timing

/-- Takes what a foreign key refers to. -/
def reference : Reader Unit := do
  let _ ← qualifiedName
  nameList?
  let _ ← many referenceRule
  timings

/-- Takes a condition between parentheses. -/
def condition : Reader Unit := do
  let _ ← parenthesized Expression.read

/-- Takes how a computed column is kept. -/
def storage : Reader Unit := do
  let _ ← oneOf ["STORED", "VIRTUAL"]

/-- Takes one option of a column. -/
def columnOption : Reader (Option ColumnOption) := do
  if ← keywords ["CHARACTER", "SET"] then
    let _ ← qualifiedName
    pure (some .other)
  else if ← keyword "COLLATE" then
    let _ ← qualifiedName
    pure (some .other)
  else if ← keywords ["NOT", "NULL"] then pure (some .notNull)
  else if ← keyword "COMMENT" then
    match ← next with
    | .text _ => pure (some .other)
    | _ => refuse
  else if ← keyword "NULL" then pure (some .null)
  else if ← keyword "DEFAULT" then do pure (some (.default (← Expression.readInColumn).text))
  else if ← keywords ["PRIMARY", "KEY"] then
    timings
    pure (some .primaryKey)
  else if ← keyword "UNIQUE" then
    let _ ← keyword "KEY"
    timings
    pure (some .unique)
  else if ← keyword "KEY" then
    timings
    pure (some .primaryKey)
  else if ← keyword "REFERENCES" then
    reference
    pure (some .other)
  else if ← keyword "CHECK" then
    condition
    timings
    pure (some .other)
  else if ← keyword "AUTO_INCREMENT" then pure (some .autoIncrement)
  else
    let _ ← keyword "AUTOINCREMENT"
    let _ ← keyword "ASC"
    let _ ← keyword "DESC"
    if ← keywords ["ON", "UPDATE"] then
      let _ ← Expression.readInColumn
      pure (some .other)
    else if ← keyword "GENERATED" then
      need (keywords ["ALWAYS", "AS"])
      condition
      storage
      pure (some .other)
    else if ← keyword "AS" then
      condition
      storage
      pure (some .other)
    else if ← keyword "SRID" then
      let _ ← Expression.readInColumn
      pure (some .other)
    else if ← keyword "INVISIBLE" then pure (some .other)
    else pure none

/-- Takes one option of a column, which may have a name. -/
def namedOption : Reader (Option ColumnOption) := do
  if ← keyword "CONSTRAINT" then
    let _ ← identifier
    match ← columnOption with
    | some option => pure (some option)
    | none => refuse
  else columnOption

/-- Takes a column. -/
def column : Reader ColumnDefinition := do
  let name ← identifier
  let type ← DataType.read
  pure ⟨name, type.text, ← many namedOption⟩

/-- Takes how an index is kept, if it says so. -/
def indexType? : Reader Unit := do
  if ← keyword "USING" then
    let _ ← next

/-- Takes a part of an index: an expression, and in which order it is kept. -/
def indexPart : Reader String := do
  let e ← Expression.read
  unless (← nextIs "ASC") || (← nextIs "DESC") do
    let _ ← attempt qualifiedName
  let _ ← oneOf ["ASC", "DESC"]
  pure (e.name.getD e.text)

/-- Takes the parts of an index. -/
def indexParts : Reader (List String) := parenthesized (commas indexPart)

/-- Takes an option of an index. -/
def indexOption : Reader (Option Unit) := do
  if ← keyword "USING" then
    let _ ← next
    pure (some ())
  else if ← keyword "COMMENT" then
    match ← next with
    | .text _ => pure (some ())
    | _ => refuse
  else pure none

/-- Takes a key behind the words that begin it: a name, and its parts. -/
def key : Reader (List String) := do
  let _ ← identifier?
  indexType?
  let parts ← indexParts
  let _ ← many indexOption
  timings
  pure parts

/-- Takes the name of a constraint, if one is given. -/
def constraintName : Reader Bool := do
  if ← keyword "CONSTRAINT" then
    let unnamed ← (do
      let check ← nextIs "CHECK"
      let primary ← nextIs "PRIMARY"
      let unique ← nextIs "UNIQUE"
      pure (check || primary || unique || (← nextIs "FOREIGN")) : Reader Bool)
    unless unnamed do
      let _ ← identifier
    pure (!unnamed)
  else pure false

/-- Takes a constraint of a table, if one is next. -/
def constraint : Reader (Option TableConstraint) := do
  let named ← constraintName
  if ← keyword "UNIQUE" then
    let _ ← oneOf ["KEY", "INDEX"]
    pure (some (.unique (← key)))
  else if ← keyword "PRIMARY" then
    need (keyword "KEY")
    pure (some (.primaryKey (← key)))
  else if ← keyword "FOREIGN" then
    need (keyword "KEY")
    let _ ← identifier?
    nameList
    need (keyword "REFERENCES")
    reference
    pure (some .other)
  else if ← keyword "CHECK" then
    condition
    timings
    pure (some .other)
  else if named then refuse
  else
    match ← oneOf ["INDEX", "KEY"] with
    | some _ =>
      unless ← nextIs "USING" do
        let _ ← identifier?
      indexType?
      let _ ← indexParts
      let _ ← many indexOption
      pure (some .other)
    | none =>
      match ← oneOf ["FULLTEXT", "SPATIAL"] with
      | some _ =>
        let _ ← oneOf ["KEY", "INDEX"]
        let _ ← identifier?
        let _ ← indexParts
        pure (some .other)
      | none => pure none

/-- Takes a constraint or a column. -/
def element : Reader (ColumnDefinition ⊕ TableConstraint) := do
  match ← constraint with
  | some c => pure (.inr c)
  | none =>
    match ← peek with
    | some (.word _) | some (.name _) => do pure (.inl (← column))
    | _ => refuse

/-- Takes columns and constraints between parentheses; there may be none. -/
def elements : Reader (List (ColumnDefinition ⊕ TableConstraint)) := do
  if ← sign "(" then
    if ← sign ")" then pure []
    else
      let es ← commas element
      need (sign ")")
      pure es
  else pure []

/-- The options of tables that are keywords with a value. -/
def valueOptions : List (List String) :=
  [["DEFAULT", "CHARSET"], ["CHARSET"], ["DEFAULT", "CHARACTER", "SET"], ["CHARACTER", "SET"],
   ["DEFAULT", "COLLATE"], ["COLLATE"], ["DATA", "DIRECTORY"], ["INDEX", "DIRECTORY"], ["KEY_BLOCK_SIZE"],
   ["ROW_FORMAT"], ["PACK_KEYS"], ["STATS_AUTO_RECALC"], ["STATS_PERSISTENT"], ["STATS_SAMPLE_PAGES"],
   ["DELAY_KEY_WRITE"], ["COMPRESSION"], ["ENCRYPTION"], ["MAX_ROWS"], ["MIN_ROWS"], ["AUTOEXTEND_SIZE"],
   ["AVG_ROW_LENGTH"], ["CHECKSUM"], ["CONNECTION"], ["ENGINE_ATTRIBUTE"], ["PASSWORD"],
   ["SECONDARY_ENGINE_ATTRIBUTE"], ["INSERT_METHOD"], ["AUTO_INCREMENT"]]

/-- Takes the first of some rows of keywords that is next. -/
def firstOf : List (List String) → Reader Bool
  | [] => pure false
  | ks :: rest => do if ← keywords ks then pure true else firstOf rest

/-- Takes one option of a table. -/
def tableOption : Reader (Option Unit) := do
  if ← keywords ["START", "TRANSACTION"] then pure (some ())
  else if ← keyword "COMMENT" then
    let _ ← sign "="
    match ← next with
    | .text _ => pure (some ())
    | _ => refuse
  else if ← keyword "ENGINE" then
    let _ ← sign "="
    match ← next with
    | .word _ | .name _ =>
      nameList?
      pure (some ())
    | _ => refuse
  else if ← keyword "TABLESPACE" then
    let _ ← sign "="
    match ← next with
    | .word _ | .name _ | .text _ =>
      if ← keyword "STORAGE" then
        let _ ← sign "="
        match ← oneOf ["DISK", "MEMORY"] with
        | some _ => pure (some ())
        | none => refuse
      else pure (some ())
    | _ => refuse
  else if ← keyword "UNION" then
    let _ ← sign "="
    nameList
    pure (some ())
  else if ← firstOf valueOptions then
    let _ ← sign "="
    match ← attempt Expression.constant with
    | some _ => pure (some ())
    | none =>
      let _ ← identifier
      pure (some ())
  else pure none

/-- Takes one option of a table and the comma that may follow it. -/
def tableOptionAndComma : Reader (Option Unit) := do
  match ← tableOption with
  | none => pure none
  | some () =>
    let _ ← sign ","
    pure (some ())

/-- Takes the definition of a table behind the word `TABLE`. -/
def definition : Reader TableDefinition := do
  let _ ← keywords ["IF", "NOT", "EXISTS"]
  let name ← qualifiedName
  if ← keyword "LIKE" then
    let _ ← qualifiedName
  let es ← elements
  let _ ← many tableOptionAndComma
  pure ⟨lastName name, es.filterMap Sum.getLeft?, es.filterMap Sum.getRight?⟩

end CreateTable

end TableMapper.Sql
