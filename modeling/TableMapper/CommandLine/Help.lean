import TableMapper.CommandLine.Arguments

/-! # Answers about the program

The texts of the help and of the version.
-/

namespace TableMapper.CommandLine

def programName : String := "mapgen-codegen"

/-- Lines of two columns, the second aligned. -/
def columns (rows : List (String × String)) : List String :=
  let width := (rows.map fun (left, _) => left.length).foldl max 0
  rows.map fun (left, right) => "  " ++ left ++ Text.repeatText (width - left.length + 2) " " ++ right

/-- The commands and what they do. -/
def commandRows : List (String × String) :=
  (Command.all.map fun c => (c.name, c.about)) ++
    [("help", "Print this message or the help of the given subcommand(s)")]

/-- An option that takes a value. -/
def settingRow (o : Setting) : String × String :=
  let start := match o.letter? with
    | some c => String.ofList ['-', c] ++ ", "
    | none => "    "
  (start ++ "--" ++ o.long ++ " " ++ o.placeholder, o.about)

/-- The options and what they say. -/
def optionRows : List (String × String) :=
  Setting.all.map settingRow ++
    [("    --dry-run", "Dry run - show what would be generated without writing files"),
     ("-h, --help", "Print help"), ("-V, --version", "Print version")]

/-- The lines of an answer. -/
def Question.lines : Question → List String
  | .version => [programName ++ " 0.1.0"]
  | .help =>
    ["Generate entity, mapper and repository sources from table schemas", "",
     "Usage: " ++ programName ++ " [OPTIONS] [COMMAND]", "", "Commands:"] ++ columns commandRows ++
      ["", "Options:"] ++ columns optionRows
  | .helpFor c =>
    [c.about, "", "Usage: " ++ programName ++ " " ++ c.name, "", "Options:"] ++
      columns [("-h, --help", "Print help")]
  | .helpForHelp =>
    ["Print this message or the help of the given subcommand(s)", "",
     "Usage: " ++ programName ++ " help [COMMAND]", "", "Commands:"] ++ columns commandRows

end TableMapper.CommandLine
