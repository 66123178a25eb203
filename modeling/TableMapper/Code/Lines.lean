/-! # Lines of code

Generated code is put together from lines, which only get their indentation where they stand in a block. A
method is kept apart into its name, its signature and its body.
-/

namespace TableMapper.Code

/-- Lines of code, without line ends. -/
abbrev Lines := List String

/-- Lines one step further to the right. Empty lines stay empty. -/
def indent (lines : Lines) : Lines :=
  lines.map fun line => if line.isEmpty then line else "    " ++ line

/-- Lines in braces behind a head. -/
def block (head : String) (body : Lines) : Lines := (head ++ " \x7b") :: indent body ++ ["\x7d"]

/-- Groups of lines with an empty line between each two. -/
def spaced : List Lines → Lines
  | [] => []
  | [group] => group
  | group :: rest => group ++ "" :: spaced rest

/-- The text of lines, each with its line end. -/
def text (lines : Lines) : String := String.join (lines.map (· ++ "\n"))

/-- Pieces with commas between them. -/
def commas (pieces : List String) : String := ", ".intercalate pieces

/-- A method of generated code. -/
structure Method where
  /-- The lines of the comment in front of the method. -/
  doc : Lines := []
  /-- The words in front of the name. -/
  kind : String := "pub fn"
  name : String
  parameters : List String
  /-- Whether each parameter stands on a line of its own. -/
  tall : Bool := false
  result : Option String
  body : Lines := []

namespace Method

/-- What stands behind the parameters: the type of the result. -/
def tail (m : Method) : String :=
  match m.result with
  | some result => ") -> " ++ result
  | none => ")"

/-- The signature of a method with a text behind it. -/
def signature (m : Method) (behind : String) : Lines :=
  let start := m.kind ++ " " ++ m.name ++ "("
  if m.tall then start :: indent (m.parameters.map (· ++ ",")) ++ [m.tail ++ behind]
  else [start ++ commas m.parameters ++ m.tail ++ behind]

/-- A method with its comment and its body. -/
def lines (m : Method) : Lines :=
  m.doc.map ("/// " ++ ·) ++ m.signature " \x7b" ++ indent m.body ++ ["\x7d"]

/-- A method without a body, as it stands in a contract. -/
def declaration (m : Method) : Lines := m.signature ";"

end Method

end TableMapper.Code
