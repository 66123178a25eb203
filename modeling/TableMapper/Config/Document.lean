import TableMapper.Config.Entry
import TableMapper.Number.Integer
import TableMapper.Text.Basic

/-! # Reading configurations from documents

A document in any notation is read as a JSON value and then taken apart into entries. A section may be
written as an object or as a list of all its values in order. Unknown keys are passed over. Scalars of the
wrong kind are converted where the notation has loose scalars, and refused where it has strict ones.
-/

namespace TableMapper

/-- How the scalars of a document are read. -/
inductive Scalars where
  /-- Scalars have to be of the right kind. -/
  | strict
  /-- Scalars are converted: words and numbers to truth values, text to numbers, all of them to text. -/
  | loose
  deriving DecidableEq, Repr

namespace Scalars

/-- The words for true and for false, in lower case. -/
def truthWord? (s : String) : Option Bool :=
  let word := Text.lower s
  if ["1", "true", "on", "yes"].contains word then some true
  else if ["0", "false", "off", "no"].contains word then some false
  else none

/-- The whole number nearest to a floating-point number, halves away from zero, cut off at 64 bits. -/
def rounded (x : Number.Double) : Int :=
  if x.isNaN then 0
  else
    let units := Number.BinaryFormat.double.units x.code
    let one := Nat.pow 2 Number.BinaryFormat.double.leastUnit
    let size : Int := (2 * units + one) / (2 * one)
    let n := if x.negative then -size else size
    max IntKind.int64.least (min IntKind.int64.greatest n)

def text? : Scalars → Json → Option String
  | _, .text s => some s
  | .loose, .bool b => some (toString b)
  | .loose, .number (.whole n) => some (toString n)
  | .loose, .number (.real x) => some x.text
  | _, _ => none

/-- A scalar as a truth value. -/
def bool? : Scalars → Json → Option Bool
  | _, .bool b => some b
  | .loose, .number (.whole n) => some (n != 0)
  | .loose, .number (.real x) => some (x.code != 0)
  | .loose, .text s => truthWord? s
  | _, _ => none

/-- A scalar as a whole number of 64 bits. -/
def int? : Scalars → Json → Option Int
  | _, .number (.whole n) => (Integer.ofInt? .int64 n).map (·.val)
  | .loose, .number (.real x) => some (rounded x)
  | .loose, .bool b => some (if b then 1 else 0)
  | .loose, .text s =>
    match truthWord? s with
    | some b => some (if b then 1 else 0)
    | none => (Integer.read? .int64 s.toList).map (·.val)
  | _, _ => none

end Scalars

/-- The members of a section. A list stands for the values of the given keys in order. -/
def sectionMembers (keys : List String) : Json → Option (List (String × Json))
  | .object members => some members
  | .array items => if items.length = keys.length then some (keys.zip items) else none
  | _ => none

/-- What stands under a key, read in one way; `none` if it cannot be read so. Nothing and null are
absent. -/
def optional (read : Json → Option α) (members : List (String × Json)) (key : String) :
    Option (Option α) :=
  match members.lookup key with
  | none => some none
  | some .null => some none
  | some value => (read value).map some

/-- A section that may be missing as a whole. -/
def sectionOr (read : Json → Option α) (absent : α) (members : List (String × Json)) (key : String) :
    Option α :=
  match members.lookup key with
  | none => some absent
  | some value => read value

/-- The entries of a section with keys of its own. -/
def readEntries (read : Json → Option α) : Json → Option (KeyMap α)
  | .object members =>
    (members.mapM fun member => (read member.2).map fun a => (member.1, a)).map KeyMap.ofList
  | _ => none

namespace ConfigEntry

/-- Texts for the kinds of generated file. -/
def readArtifacts (s : Scalars) (j : Json) : Option ArtifactEntries := do
  let members ← sectionMembers ["entity", "mapper", "repository"] j
  let entity ← optional s.text? members "entity"
  let mapper ← optional s.text? members "mapper"
  let repository ← optional s.text? members "repository"
  pure { entity, mapper, repository }

/-- One text or a list of texts. Here no scalar is converted. -/
def readOneOrMany : Json → Option OneOrMany
  | .text s => some (.one s)
  | .array items => (items.mapM (Scalars.text? .strict)).map .many
  | _ => none

/-- A rule by its kind or with options. Here no scalar is converted. -/
def readRule : Json → Option RuleEntry
  | .text s => some (.kind s)
  | j => do
    let members ←
      sectionMembers ["type", "min", "max", "preset", "pattern", "hostname", "allow_null"] j
    let kind ← optional (Scalars.text? .strict) members "type"
    let least ← optional (Scalars.int? .strict) members "min"
    let greatest ← optional (Scalars.int? .strict) members "max"
    let preset ← optional (Scalars.text? .strict) members "preset"
    let pattern ← optional (Scalars.text? .strict) members "pattern"
    let hostname ← optional (Scalars.bool? .strict) members "hostname"
    let allowNull ← optional (Scalars.bool? .strict) members "allow_null"
    pure (.detailed { kind, least, greatest, preset, pattern, hostname, allowNull })

def readJoin (s : Scalars) (j : Json) : Option JoinEntry := do
  let members ← sectionMembers
    ["config", "relation", "type", "local_field", "local_alias", "remote_field", "remote_alias"] j
  let config ← optional s.text? members "config"
  let relation ← optional s.text? members "relation"
  let type ← optional s.text? members "type"
  let localField ← optional s.text? members "local_field"
  let localAlias ← optional s.text? members "local_alias"
  let remoteField ← optional s.text? members "remote_field"
  let remoteAlias ← optional s.text? members "remote_alias"
  pure { config, relation, type, localField, localAlias, remoteField, remoteAlias }

/-- Who wrote a table's files, and who holds their copyright. -/
def readComment (s : Scalars) (j : Json) : Option (Option String × Option String) := do
  let members ← sectionMembers ["author", "copyright"] j
  let author ← optional s.text? members "author"
  let copyright ← optional s.text? members "copyright"
  pure (author, copyright)

/-- The name of the entity type. -/
def readClass (s : Scalars) (j : Json) : Option (Option String) := do
  let members ← sectionMembers ["classname"] j
  optional s.text? members "classname"

/-- The start of the cache keys, and whether rows are cached. -/
def readCache (s : Scalars) (j : Json) : Option (Option String × Option Bool) := do
  let members ← sectionMembers ["prefix", "enabled"] j
  let start ← optional s.text? members "prefix"
  let enabled ← optional s.bool? members "enabled"
  pure (start, enabled)

/-- The table, and what its columns may start with. -/
def readDatabase (s : Scalars) (j : Json) : Option (Option String × Option OneOrMany) := do
  let members ← sectionMembers ["table", "prefix"] j
  let table ← optional s.text? members "table"
  let prefixes ← optional readOneOrMany members "prefix"
  pure (table, prefixes)

/-- The sections of a configuration. -/
def sections : List String :=
  ["comment", "class", "namespace", "path", "cache", "database", "validation", "joins"]

/-- The members of a configuration. A list may leave out sections at its end. -/
def configMembers : Json → Option (List (String × Json))
  | .object members => some members
  | .array items => if items.length ≤ sections.length then some (sections.zip items) else none
  | _ => none

/-- Reads the configuration of a table. -/
def read (s : Scalars) (j : Json) : Option ConfigEntry := do
  let members ← configMembers j
  let (author, copyright) ← sectionOr (readComment s) (none, none) members "comment"
  let className ← sectionOr (readClass s) none members "class"
  let namespaces ← sectionOr (readArtifacts s) {} members "namespace"
  let paths ← sectionOr (readArtifacts s) {} members "path"
  let (cachePrefix, cacheEnabled) ← sectionOr (readCache s) (none, none) members "cache"
  let (table, prefixes) ← sectionOr (readDatabase s) (none, none) members "database"
  let rules ← sectionOr (readEntries readRule) .empty members "validation"
  let joins ← sectionOr (readEntries (readJoin s)) .empty members "joins"
  pure { author, copyright, className, namespaces, paths, cachePrefix, cacheEnabled, table, prefixes,
         rules, joins }

/-- Reads the configurations of a tables file. -/
def readAll (s : Scalars) : Json → Option (KeyMap ConfigEntry) := readEntries (read s)

end ConfigEntry

end TableMapper
