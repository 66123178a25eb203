import TableMapper.Text.Words

/-! # Identifiers of generated code

Names of columns, aliases and configurations become names of fields, methods and modules in snake case.
A name that is a keyword of the generated code is written so that it is none.
-/

namespace TableMapper.Code

/-- The keywords of the generated code, in order. -/
def keywords : List String :=
  ["Self", "abstract", "as", "async", "await", "become", "box", "break", "const", "continue", "crate",
   "do", "dyn", "else", "enum", "extern", "false", "final", "fn", "for", "gen", "if", "impl", "in",
   "let", "loop", "macro", "match", "mod", "move", "mut", "override", "priv", "pub", "ref", "return",
   "self", "static", "struct", "super", "trait", "true", "try", "type", "typeof", "unsafe", "unsized",
   "use", "virtual", "where", "while", "yield"]

/-- The keywords that stand for places in the tree of modules. They have no raw form. -/
def pathKeywords : List String := ["Self", "crate", "self", "super"]

def isKeyword (name : String) : Bool := keywords.contains name

/-- The name of a field without regard to keywords. -/
def plainName (name : String) : String := Text.Words.snake name

def moduleName (typeName : String) : String := Text.Words.snake typeName

/-- The name of a field or method: a keyword is written raw, or with an underscore behind it where there
is no raw form. -/
def fieldName (name : String) : String :=
  let plain := plainName name
  if pathKeywords.contains plain then plain ++ "_"
  else if isKeyword plain then "r#" ++ plain
  else plain

/-- The name of the method that looks a row up by the given fields. -/
def findByName (fields : List String) : String :=
  "find_by_" ++ "_and_".intercalate (fields.map plainName)

end TableMapper.Code
