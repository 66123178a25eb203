import TableMapper.Settings.Basic

/-! # Arguments of the command line

Options come before the command, each once at most. An option takes the rest of its argument or the next one;
what looks like an option is no value.
-/

namespace TableMapper.CommandLine

/-- What to do. -/
inductive Command where
  | generate | entities | mappers | inspect
  deriving DecidableEq, Repr

namespace Command

/-- Every command. -/
def all : List Command := [generate, entities, mappers, inspect]

def name : Command → String
  | generate => "generate"
  | entities => "entities"
  | mappers => "mappers"
  | inspect => "inspect"

/-- What a command does. -/
def about : Command → String
  | generate => "Generate all (entities, mappers and repositories)"
  | entities => "Generate only entities"
  | mappers => "Generate only mappers"
  | inspect => "Inspect resolved configurations, joins and column types"

def ofName? (s : String) : Option Command := all.find? fun c => c.name == s

end Command

/-- The options that take a value. -/
inductive Setting where
  | config | tables | schema | databaseUrl | output | table
  deriving DecidableEq, Repr

namespace Setting

/-- Every option that takes a value. -/
def all : List Setting := [config, tables, schema, databaseUrl, output, table]

/-- The long name of an option. -/
def long : Setting → String
  | config => "config"
  | tables => "tables"
  | schema => "schema"
  | databaseUrl => "database-url"
  | output => "output"
  | table => "table"

/-- The letter of an option, if it has one. -/
def letter? : Setting → Option Char
  | config => some 'c'
  | tables => some 't'
  | schema => some 's'
  | output => some 'o'
  | databaseUrl | table => none

/-- What stands for the value in the help. -/
def placeholder (o : Setting) : String := "<" ++ (Text.replaceChar '-' "_" o.long).toUpper ++ ">"

/-- Whether the value may be empty; a path may not. -/
def admitsEmpty : Setting → Bool
  | databaseUrl | table => true
  | _ => false

/-- What an option says. -/
def about : Setting → String
  | config => "Path to settings file (TOML format)"
  | tables => "Path to the per-table configuration file (overrides settings)"
  | schema => "Path to SQL schema file (overrides settings)"
  | databaseUrl => "Database URL to introspect instead of a schema file"
  | output => "Output root that relative artifact paths are joined onto"
  | table => "Generate only this table configuration"

end Setting

/-- The arguments of a call. -/
structure Arguments where
  values : List (Setting × String) := []
  dryRun : Bool := false
  command : Option Command := none
  deriving DecidableEq, Repr

/-- What is asked about the program instead of a run. -/
inductive Question where
  | help
  | helpFor (command : Command)
  | helpForHelp
  | version
  deriving DecidableEq, Repr

/-- Why there is nothing to run. -/
inductive Stop where
  | answer (question : Question)
  | misuse (complaint : String)
  deriving DecidableEq, Repr

namespace Arguments

def value? (a : Arguments) (o : Setting) : Option String := a.values.lookup o

/-- The arguments with one more option. -/
def add (a : Arguments) (o : Setting) (value : String) : Except Stop Arguments :=
  if (a.value? o).isSome then .error (.misuse ("option used twice: --" ++ o.long))
  else if value.isEmpty && !o.admitsEmpty then .error (.misuse ("no value for --" ++ o.long))
  else .ok { a with values := a.values ++ [(o, value)] }

/-- The arguments of a run that writes nothing. -/
def addDryRun (a : Arguments) : Except Stop Arguments :=
  if a.dryRun then .error (.misuse "option used twice: --dry-run") else .ok { a with dryRun := true }

/-- Whether an argument looks like an option. A dash alone does not. -/
def looksLikeOption (s : String) : Bool := (Text.dropPrefix? "-" s).any fun rest => !rest.isEmpty

/-- What an argument is, as far as it can be told without the next one. -/
inductive Shape where
  | dryRun
  | option (o : Setting) (value : Option String)
  | question (q : Question)
  | word (s : String)
  | unknown (s : String)

/-- A long option, with its value behind an equals sign or without. -/
def longShape (body : String) : Shape :=
  let (name, value) := match Text.splitFirst '=' body.toList with
    | some (name, value) => (String.ofList name, some (String.ofList value))
    | none => (body, none)
  match Setting.all.find? fun o => o.long == name with
  | some o => .option o value
  | none =>
    match name, value with
    | "dry-run", none => .dryRun
    | "help", none => .question .help
    | "version", none => .question .version
    | _, _ => .unknown body

/-- An option by its letter, with its value behind it or without. -/
def letterShape (c : Char) (rest : List Char) : Shape :=
  match Setting.all.find? fun o => o.letter? == some c with
  | some o =>
    match rest with
    | [] => .option o none
    | '=' :: value => .option o (some (String.ofList value))
    | value => .option o (some (String.ofList value))
  | none =>
    if c = 'h' then .question .help else if c = 'V' then .question .version else .unknown (String.ofList [c])

/-- What an argument is. -/
def shape (s : String) : Shape :=
  match s.toList with
  | '-' :: '-' :: [] => .unknown s
  | '-' :: '-' :: body => longShape (String.ofList body)
  | '-' :: c :: rest => letterShape c rest
  | _ => .word s

/-- What follows a command. It takes no arguments. -/
def afterCommand (c : Command) (a : Arguments) : List String → Except Stop Arguments
  | [] => .ok { a with command := some c }
  | s :: _ =>
    if s = "-h" ∨ s = "--help" then .error (.answer (.helpFor c)) else .error (.misuse ("unexpected " ++ s))

/-- What the help is asked about. -/
def helpAbout : List String → Stop
  | [] => .answer .help
  | ["help"] => .answer .helpForHelp
  | [name] =>
    match Command.ofName? name with
    | some c => .answer (.helpFor c)
    | none => .misuse ("unknown command " ++ name)
  | _ => .misuse "unexpected argument"

/-- Reads arguments behind those that are read already. -/
def readAfter (a : Arguments) : List String → Except Stop Arguments
  | [] => .ok a
  | ["--"] => .ok a
  | s :: rest =>
    match shape s with
    | .dryRun => do readAfter (← a.addDryRun) rest
    | .option o (some value) => do readAfter (← a.add o value) rest
    | .option o none =>
      match rest with
      | [] => .error (.misuse ("no value for --" ++ o.long))
      | value :: rest =>
        if looksLikeOption value then .error (.misuse ("no value for --" ++ o.long))
        else do readAfter (← a.add o value) rest
    | .question q => .error (.answer q)
    | .word s =>
      match Command.ofName? s with
      | some c => afterCommand c a rest
      | none => if s = "help" then .error (helpAbout rest) else .error (.misuse ("unknown command " ++ s))
    | .unknown s => .error (.misuse ("unknown option " ++ s))

/-- Reads the arguments of a call. -/
def read (args : List String) : Except Stop Arguments := readAfter {} args

/-- Settings changed as the arguments say. -/
def apply (a : Arguments) (s : Settings) : Settings :=
  let s := { s with tablesFile := (a.value? .tables).getD s.tablesFile }
  let s := ((a.value? .schema).map s.withSchemaFile).getD s
  let s := ((a.value? .databaseUrl).map s.withDatabase).getD s
  let s := { s with outputRoot := (a.value? .output).getD s.outputRoot }
  let s := { s with table := (a.value? .table).or s.table, dryRun := a.dryRun || s.dryRun }
  match a.command with
  | some .entities => s.entitiesOnly
  | some .mappers => s.mappersOnly
  | _ => s

end Arguments

end TableMapper.CommandLine
