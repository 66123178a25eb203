import TableMapper.Text.Quoted

/-! # Faults of configurations

What can be wrong with the configuration of a table, found at one of its keys.
-/

namespace TableMapper

/-- What is wrong at a key. -/
inductive ConfigReason where
  | required
  /-- One of the two keys for a repository without the other. -/
  | requiredWithOther
  | unknownRule (name : String)
  | unknownPreset (name : String)
  /-- A pattern that the engine complains about. -/
  | badPattern (complaint : String)
  | unknownRelation (name : String)
  | unknownJoinType (name : String)
  | notTypeName (name : String)
  /-- Two columns whose names come to the same field. -/
  | sameField (table field : String)
  | noColumn (table : String)
  | noColumnNamed (table column : String)
  deriving DecidableEq, Repr

/-- The complaint about a name that is none of a relation. -/
def unknownRelationMessage (name : String) : String :=
  "unknown relation " ++ Text.Quoted.encode name ++ " (expected one or many)"

/-- A name between backticks. -/
def ticked (s : String) : String := "\x60" ++ s ++ "\x60"

open Text.Quoted in
/-- What is wrong, in words. -/
def ConfigReason.message : ConfigReason → String
  | .required => "is required"
  | .requiredWithOther => "is required when the other repository key is set"
  | .unknownRule name => "names unknown validator " ++ encode name
  | .unknownPreset name => "names unknown preset " ++ encode name
  | .badPattern complaint => "is not a valid regex: " ++ complaint
  | .unknownRelation name => unknownRelationMessage name
  | .unknownJoinType name => "unknown join type " ++ encode name
  | .notTypeName name => encode name ++ " is not a valid type name"
  | .sameField table field =>
    "maps more than one column of " ++ ticked table ++ " to field " ++ ticked field
  | .noColumn table => "names no column of " ++ ticked table
  | .noColumnNamed table column => "names no column of " ++ ticked table ++ ": " ++ encode column

/-- A fault at a key of a configuration. -/
structure ConfigFault where
  config : String
  key : String
  reason : ConfigReason
  deriving DecidableEq, Repr

/-- A fault in words. -/
def ConfigFault.message (f : ConfigFault) : String :=
  "Invalid configuration " ++ ticked f.config ++ ": " ++ ticked f.key ++ " " ++ f.reason.message

end TableMapper
