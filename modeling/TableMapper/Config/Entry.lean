import TableMapper.KeyMap
import TableMapper.Json.Basic

/-! # Written configurations

The configuration of a table as it is written in the tables file, before anything is checked. A document
that has something of the wrong kind in a place is refused as a whole.
-/

namespace TableMapper

/-- A rule with its options, as written. -/
structure RuleSpec where
  kind : Option String := none
  least : Option Int := none
  greatest : Option Int := none
  preset : Option String := none
  pattern : Option String := none
  hostname : Option Bool := none
  allowNull : Option Bool := none
  deriving DecidableEq, Repr

/-- A rule as written: its kind alone, or with options. -/
inductive RuleEntry where
  | kind (name : String)
  | detailed (spec : RuleSpec)
  deriving DecidableEq, Repr

/-- A join as written. -/
structure JoinEntry where
  /-- The name of the configuration of the joined table. -/
  config : Option String := none
  relation : Option String := none
  type : Option String := none
  localField : Option String := none
  localAlias : Option String := none
  remoteField : Option String := none
  remoteAlias : Option String := none
  deriving DecidableEq, Repr

/-- One text for each kind of generated file. -/
structure ArtifactEntries where
  entity : Option String := none
  mapper : Option String := none
  repository : Option String := none
  deriving DecidableEq, Repr

/-- One text, or a list of them. -/
inductive OneOrMany where
  | one (s : String)
  | many (l : List String)
  deriving DecidableEq, Repr

/-- The texts of an entry that admits one or many. -/
def OneOrMany.toList : OneOrMany → List String
  | .one s => [s]
  | .many l => l

/-- The configuration of a table as written. -/
structure ConfigEntry where
  author : Option String := none
  copyright : Option String := none
  className : Option String := none
  namespaces : ArtifactEntries := {}
  paths : ArtifactEntries := {}
  cachePrefix : Option String := none
  cacheEnabled : Option Bool := none
  table : Option String := none
  prefixes : Option OneOrMany := none
  rules : KeyMap RuleEntry := .empty
  joins : KeyMap JoinEntry := .empty

end TableMapper
