import TableMapper.Code.Generation
import TableMapper.Sql.CreateTable

/-! # Scripts

A script is statements with semicolons between them. Only definitions of tables count; the other statements
are passed over, as far as they look like statements.
-/

namespace TableMapper.Sql

namespace Script

open Reader

/-- The words that begin statements other than definitions, and how many tokens such a statement has at
least. -/
def leads : List (String × Nat) :=
  [("SELECT", 2), ("INSERT", 4), ("REPLACE", 4), ("UPDATE", 5), ("DELETE", 3), ("DROP", 3), ("ALTER", 4),
   ("TRUNCATE", 2), ("SET", 3), ("USE", 2), ("SHOW", 2), ("DESCRIBE", 2), ("DESC", 2), ("EXPLAIN", 2),
   ("ANALYZE", 2), ("GRANT", 4), ("REVOKE", 4), ("START", 2), ("BEGIN", 1), ("COMMIT", 1), ("ROLLBACK", 1),
   ("SAVEPOINT", 2), ("RELEASE", 2), ("CALL", 2), ("WITH", 4), ("VALUES", 3), ("LOCK", 3), ("UNLOCK", 2),
   ("RENAME", 5), ("FLUSH", 2), ("KILL", 2), ("PREPARE", 4), ("EXECUTE", 2), ("DEALLOCATE", 2),
   ("DECLARE", 2), ("CREATE", 3)]

/-- What `CREATE` makes other than tables. -/
def creations : List String :=
  ["VIEW", "MATERIALIZED", "INDEX", "UNIQUE", "DATABASE", "SCHEMA", "PROCEDURE", "TRIGGER", "USER", "ROLE",
   "SEQUENCE", "TYPE", "SERVER", "ALGORITHM", "DEFINER", "SQL", "EXTENSION", "DOMAIN"]

/-- Words that do not go without one of some others. -/
def companions : List (String × List String) :=
  [("INSERT", ["VALUES", "VALUE", "SELECT", "SET", "TABLE", "DEFAULT"]),
   ("REPLACE", ["VALUES", "VALUE", "SELECT", "SET", "TABLE", "DEFAULT"]), ("UPDATE", ["SET"]),
   ("DELETE", ["FROM"]), ("RENAME", ["TO"]), ("GRANT", ["TO"]), ("REVOKE", ["FROM"]), ("PREPARE", ["AS"]),
   ("WITH", ["SELECT", "INSERT", "UPDATE", "DELETE", "VALUES", "TABLE"]), ("VIEW", ["AS"]), ("INDEX", ["ON"]),
   ("PROCEDURE", ["AS"]), ("TRIGGER", ["ON"])]

/-- Takes the rest of a statement up to its semicolon; `depth` parentheses are open. -/
def rest (depth : Nat) : Nat → Reader (List Token)
  | 0 => refuse
  | steps + 1 => do
    match ← peek with
    | none => if depth = 0 then pure [] else refuse
    | some t =>
      if t = .sign ";" then
        if depth = 0 then pure [] else refuse
      else
        let _ ← next
        if t = .sign "(" then do pure (t :: (← rest (depth + 1) steps))
        else if t = .sign ")" then
          if depth = 0 then refuse else do pure (t :: (← rest (depth - 1) steps))
        else do pure (t :: (← rest depth steps))

/-- Takes the rest of a statement up to its semicolon. -/
def untilEnd : Reader (List Token) := do rest 0 (← room)

/-- Whether there is something behind every comma. -/
def endsItems : List Token → Bool
  | [] => true
  | t :: ts =>
    (t != .sign "," || ts.head?.any fun u => u != .sign ")" && !u.isKeyword "FROM") && endsItems ts

/-- Whether a statement has one of the words that the word before them does not go without. -/
def hasCompanion (word : Token) (ts : List Token) : Bool :=
  companions.all fun (lead, others) => !word.isKeyword lead || ts.any fun t => others.any (t.isKeyword ·)

/-- What `CREATE` makes, and how: the tokens behind it, without the words for making it anew. -/
def created (ts : List Token) : List Token := (dropKeywords? ["OR", "REPLACE"] ts).getD ts

/-- Whether the tokens of a statement that defines no table look like one. -/
def looksWhole (ts : List Token) : Bool :=
  endsItems ts &&
  match ts with
  | first :: more =>
    hasCompanion first more &&
    !(first.isKeyword "SELECT" && more.head?.any (·.isKeyword "FROM")) &&
    (!first.isKeyword "CREATE" || ((created more).take 2).all (hasCompanion · more)) &&
    (["SHOW", "GRANT", "REVOKE"].any (first.isKeyword ·) || !more.any (·.isKeyword "CREATE"))
  | [] => false

/-- Takes the word `CREATE`, the words that say how, and `TABLE`. -/
def createTable : Reader Bool := do
  let start ← get
  if ← keyword "CREATE" then
    let _ ← keywords ["OR", "REPLACE"]
    let _ ← oneOf ["LOCAL"]
    let _ ← oneOf ["GLOBAL"]
    let _ ← oneOf ["TRANSIENT"]
    let _ ← oneOf ["TEMP", "TEMPORARY"]
    if ← keyword "TABLE" then pure true
    else
      set start
      pure false
  else pure false

/-- Whether a token begins a statement that `CREATE` makes, or another kind of statement. -/
def begins (ts : List Token) : Option Nat :=
  match ts with
  | .word w :: more =>
    let least := leads.lookup w.toUpper
    if w.toUpper = "CREATE" then
      if creations.any fun k => (created more).head?.any (·.isKeyword k) then least else none
    else least
  | .sign "(" :: _ => some 4
  | _ => none

/-- Takes a statement. What it gives is the table that it defines, if it does. -/
def statement : Reader (Option TableDefinition) := do
  if ← createTable then
    let t ← CreateTable.definition
    let query ← (do pure ((← nextIs "AS") || (← nextIs "SELECT")) : Reader Bool)
    if query then
      let _ ← untilEnd
    pure (some t)
  else
    match begins (← get) with
    | none => refuse
    | some least =>
      let ts ← untilEnd
      if least ≤ ts.length ∧ looksWhole ts then pure none else refuse

/-- Takes statements up to the end of the script. -/
def statements : Nat → Reader (List TableDefinition)
  | 0 => refuse
  | steps + 1 => do
    if ← sign ";" then statements steps
    else
      match ← peek with
      | none => pure []
      | some _ =>
        let table ← statement
        if ← sign ";" then do pure (table.toList ++ (← statements steps))
        else if ← nextIs "END" then pure table.toList
        else
          match ← peek with
          | none => pure table.toList
          | some _ => refuse

/-- The tables that a script defines, in order. -/
def tables (s : String) : Option (List TableDefinition) := do
  let tokens ← Token.scan s
  let (tables, _) ← (statements (tokens.length + 1)).run tokens
  pure tables

end Script

/-- The columns of tables by name. A table that is defined again replaces the earlier one. -/
def columnsByTable (tables : List TableDefinition) : KeyMap (List SchemaColumn) :=
  .ofList (tables.map fun t => (t.name, t.describe))

end TableMapper.Sql

namespace TableMapper

/-- The columns of the tables that a script defines. -/
def readScript (script : String) : Except GenerationError (KeyMap (List SchemaColumn)) :=
  match Sql.Script.tables script with
  | some tables => .ok (Sql.columnsByTable tables)
  | none => .error .schema

/-- Described tables as a schema. -/
def Schema.ofTables (tables : KeyMap (List SchemaColumn)) : Schema := fun table =>
  match tables.get? table with
  | some columns => .ok columns
  | none => .error (.missingTable table)

end TableMapper
