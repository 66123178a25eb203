import TableMapper.Text.Basic

/-! # Words of the query language

The fixed vocabularies of statements: comparison operators, the words that join predicates, sort
directions and join types, each with its spelling and a reader for it.
-/

namespace TableMapper

/-- How a predicate compares a column with its operand. -/
inductive Operator where
  | eq
  | notEq
  /-- The other spelling of `notEq`. -/
  | differs
  | greater
  | greaterEq
  | less
  | lessEq
  /-- Equality for which NULL equals NULL. -/
  | nullSafeEq
  | like
  | regexp
  | is
  | isNot
  deriving DecidableEq, Repr

namespace Operator

/-- Every operator. -/
def all : List Operator :=
  [eq, notEq, differs, greater, greaterEq, less, lessEq, nullSafeEq, like, regexp, is, isNot]

/-- The spelling of an operator in statements. -/
def sql : Operator → String
  | eq => "="
  | notEq => "!="
  | differs => "<>"
  | greater => ">"
  | greaterEq => ">="
  | less => "<"
  | lessEq => "<="
  | nullSafeEq => "<=>"
  | like => "LIKE"
  | regexp => "REGEXP"
  | is => "IS"
  | isNot => "IS NOT"

/-- The operator of a given spelling, in any case. -/
def ofText? (s : String) : Option Operator :=
  all.find? fun op => op.sql == (Text.trim s).toUpper

/-- Operators whose operand stands in the text of the statement: NULL or a truth value. -/
def takesLiteral : Operator → Bool
  | is | isNot => true
  | _ => false

end Operator

/-- How a predicate attaches to the ones before it. -/
inductive Concat where
  | and | or
  deriving DecidableEq, Repr

/-- The word that joins two predicates. -/
def Concat.sql : Concat → String
  | .and => "AND"
  | .or => "OR"

/-- The direction in which rows are sorted. -/
inductive Direction where
  | ascending | descending
  deriving DecidableEq, Repr

/-- The spelling of a direction. -/
def Direction.sql : Direction → String
  | .ascending => "ASC"
  | .descending => "DESC"

inductive JoinType where
  | inner | leftOuter | rightOuter | fullOuter
  deriving DecidableEq, Repr

namespace JoinType

/-- The spelling of a join type. -/
def sql : JoinType → String
  | inner => "INNER JOIN"
  | leftOuter => "LEFT OUTER JOIN"
  | rightOuter => "RIGHT OUTER JOIN"
  | fullOuter => "FULL OUTER JOIN"

/-- The name of a join type in generated code. -/
def label : JoinType → String
  | inner => "Inner"
  | leftOuter => "LeftOuter"
  | rightOuter => "RightOuter"
  | fullOuter => "FullOuter"

/-- The join type of a given name, in any case, with or without the word for a join. -/
def ofName? (s : String) : Option JoinType :=
  let name := (Text.trim s).toLower
  match (Text.dropSuffix? " join" name).getD name with
  | "inner" => some inner
  | "left" => some leftOuter
  | "left outer" => some leftOuter
  | "right" => some rightOuter
  | "right outer" => some rightOuter
  | "full" => some fullOuter
  | "full outer" => some fullOuter
  | _ => none

/-- Whether rows of the joined table may be missing from a result. -/
def isOptional : JoinType → Bool
  | inner => false
  | _ => true

end JoinType

end TableMapper
