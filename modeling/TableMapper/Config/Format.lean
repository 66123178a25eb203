import TableMapper.Code.Error
import TableMapper.Config.Document
import TableMapper.Files.Access
import TableMapper.Files.Path
import TableMapper.Json.Parser
import TableMapper.Toml.Reader
import TableMapper.Yaml.Reader

/-! # Formats of configuration files

Configuration files are written in one of several formats, which the extension of a file shows. Whatever the
format, a document is an object, and a key of it that is a path of names with dots stands for a key inside an
object.
-/

namespace TableMapper

/-- The formats of configuration files. -/
inductive DocumentFormat where
  | toml | json | yaml
  deriving DecidableEq, Repr

namespace DocumentFormat

/-- The extensions of files, each with its format. -/
def extensions : List (String × DocumentFormat) :=
  [("toml", .toml), ("json", .json), ("yaml", .yaml), ("yml", .yaml)]

/-- The format of files with an extension. -/
def ofExtension? (extension : String) : Option DocumentFormat := extensions.lookup extension

/-- Reads a document. Points in time are texts. -/
def parse? : DocumentFormat → String → Option Json
  | .toml => Toml.parse? .text
  | .json => Json.parse?
  | .yaml => Yaml.parse?

end DocumentFormat

namespace Document

/-- Whether a character may stand in a name that is part of a path of names. -/
def isNameChar (c : Char) : Bool := c.isAlphanum || c == '_' || c == '-'

/-- The names that a key stands for: those between its dots, unless one of them is no name. -/
def keyPath (key : String) : List String :=
  let names := Text.splitChar '.' key
  if names.all fun name => !name.isEmpty && name.toList.all isNameChar then names else [key]

/-- The members of an object; anything else has none. -/
def membersOf : Option Json → List (String × Json)
  | some (.object members) => members
  | _ => []

/-- Puts a value under a path of names. An object that is there already stays, as far as it is not
replaced. -/
def putUnder (value : Json) : List String → List (String × Json) → List (String × Json)
  | [], members => members
  | [name], members =>
    match value with
    | .object inner =>
      let kept := membersOf (members.lookup name)
      let merged := inner.foldl (fun sorted (key, v) => Json.insertMember key v sorted) kept
      Json.insertMember name (.object merged) members
    | _ => Json.insertMember name value members
  | name :: rest, members =>
    Json.insertMember name (.object (putUnder value rest (membersOf (members.lookup name)))) members

/-- A document whose keys with dots are taken apart. Only an object is one. -/
def spread? : Json → Option Json
  | .object members =>
    some (.object (members.foldl (fun sorted (key, v) => putUnder v (keyPath key) sorted) []))
  | _ => none

/-- The first of some files that is there. -/
def firstFile [Monad m] (fs : FileAccess m) :
    List (String × DocumentFormat) → m (Option (String × DocumentFormat))
  | [] => pure none
  | (path, format) :: rest => do
    if ← fs.isFile path then pure (some (path, format)) else firstFile fs rest

/-- The file that a path means: that very file, or one whose name goes on with an extension. -/
def find? [Monad m] (fs : FileAccess m) (path : String) : m (Option (String × DocumentFormat)) := do
  if ← fs.isFile path then
    pure (((Path.extension? path).bind DocumentFormat.ofExtension?).map (path, ·))
  else
    firstFile fs (DocumentFormat.extensions.map fun (extension, format) => (path ++ "." ++ extension, format))

/-- A text without the mark of its encoding at the start. -/
def dropMark (s : String) : String := (Text.dropPrefix? "\uFEFF" s).getD s

/-- Reads the document that a path means; `none` if there is no such file. -/
def load [Monad m] (fs : FileAccess m) (path : String) : ExceptT GenerationError m (Option Json) := do
  match ← ExceptT.lift (find? fs path) with
  | none => pure none
  | some (file, format) =>
    match ← (fs.read file).run with
    | .error _ => pure none
    | .ok text =>
      match (format.parse? (dropMark text)).bind spread? with
      | some document => pure (some document)
      | none => throw (.document .malformed)

/-- Reads the document that a path means, which has to be there. -/
def loadRequired [Monad m] (fs : FileAccess m) (path : String) : ExceptT GenerationError m Json := do
  match ← load fs path with
  | some document => pure document
  | none => throw (.document .malformed)

end Document

end TableMapper
