import TableMapper.Text.Basic

/-! # Paths

The path of a file or directory is a text with slashes between its parts. Parts that lead nowhere (an empty
one, or a dot that is not the first) count for nothing when paths are compared, but stay as they are
written.
-/

namespace TableMapper.Path

/-- A part of a path. -/
inductive Part where
  /-- The root of all paths. -/
  | root
  /-- The current directory, where a path starts with a dot. -/
  | current
  /-- The directory above. -/
  | up
  | named (name : String)
  deriving DecidableEq, Repr

/-- The place of a part in the order of parts. -/
def Part.rank : Part → Nat
  | .root => 0
  | .current => 1
  | .up => 2
  | .named _ => 3

/-- Whether a part comes before another. -/
def Part.before : Part → Part → Bool
  | .named a, .named b => a < b
  | a, b => a.rank < b.rank

/-- Whether a path starts at the root. -/
def isAbsolute (path : String) : Bool := path.toList.head? == some '/'

/-- Whether a piece between slashes leads nowhere. -/
def isIdle (piece : List Char) : Bool := piece == [] || piece == ['.']

/-- The part that a piece between slashes stands for. -/
def partOf (piece : List Char) : Part :=
  if piece = ['.', '.'] then .up else .named (String.ofList piece)

def parts (path : String) : List Part :=
  let pieces := path.toList.splitOn '/'
  let body := (pieces.filter fun piece => !isIdle piece).map partOf
  if isAbsolute path then .root :: body
  else if pieces.head? = some ['.'] then .current :: body
  else body

/-- Whether a list of parts comes before another. -/
def partsBefore : List Part → List Part → Bool
  | [], [] => false
  | [], _ :: _ => true
  | _ :: _, [] => false
  | a :: as, b :: bs => a.before b || (a == b && partsBefore as bs)

/-- A path inside a directory. An absolute path stands for itself. -/
def join (directory path : String) : String :=
  if isAbsolute path then path
  else if directory.isEmpty || directory.toList.getLast? == some '/' then directory ++ path
  else directory ++ "/" ++ path

/-- What stands before the body of a path, and its body: a slash for the root or a dot for the current
directory. -/
def cutStart (path : List Char) : List Char × List Char :=
  match path with
  | '/' :: rest => (['/'], rest)
  | ['.'] => (['.'], [])
  | '.' :: '/' :: rest => (['.'], '/' :: rest)
  | _ => ([], path)

/-- The directory that a path is in: the path without its last part. -/
def parent? (path : String) : Option String :=
  let (start, body) := cutStart path.toList
  match (body.splitOn '/').reverse.dropWhile isIdle with
  | _ :: pieces =>
    let kept := (pieces.dropWhile isIdle).reverse
    some (String.ofList (start ++ ['/'].intercalate kept))
  | [] => if start = ['.'] then some "" else none

/-- Puts a path in its place among paths in order; one that is there already, in any spelling, stays. -/
def insertPath (path : String) : List String → List String
  | [] => [path]
  | other :: rest =>
    if parts path = parts other then other :: rest
    else if partsBefore (parts path) (parts other) then path :: other :: rest
    else other :: insertPath path rest

/-- The name of the file or directory that a path leads to. -/
def fileName? (path : String) : Option String :=
  match (parts path).getLast? with
  | some (.named name) => some name
  | _ => none

/-- A name without its extension, and the extension: what follows the last dot, unless the name starts with
that dot. -/
def splitExtension (name : String) : String × Option String :=
  match Text.splitLast '.' name.toList with
  | some (c :: before, after) => (String.ofList (c :: before), some (String.ofList after))
  | _ => (name, none)

/-- The extension of the file that a path leads to. -/
def extension? (path : String) : Option String := (fileName? path).bind fun name => (splitExtension name).2

end TableMapper.Path
