import TableMapper.Files.Access
import TableMapper.Files.Path

/-! # Trees of files

The files and directories of a system as a value, seen from a working directory. A place is the list of names
on the way to it from the root; places stand in order, each once, so that what a directory holds follows the
directory. There are no links, so the directory above a place is the place without its last name, and the root
is its own directory above.
-/

namespace TableMapper

/-- What stands at a place. -/
inductive FileNode where
  | directory
  | file (contents : String)
  deriving DecidableEq, Repr

/-- Names on the way from the root. -/
abbrev FileTree.Place := List String

/-- The files and directories of a system, apart from the working directory and those above it. Paths that do
not start at the root start at the working directory. -/
structure FileTree (here : FileTree.Place) where
  nodes : List (FileTree.Place × FileNode)
  deriving DecidableEq, Repr

namespace FileTree

variable {here : Place}

/-- The tree of a system with nothing in it but an empty working directory. -/
def empty : FileTree here := ⟨[]⟩

/-- Whether a place comes before another: by the first name that differs. -/
def placeBefore : Place → Place → Bool
  | [], [] => false
  | [], _ :: _ => true
  | _ :: _, [] => false
  | a :: as, b :: bs => a < b || (a == b && placeBefore as bs)

/-- Puts a node in its place; one that stands there already is replaced. -/
def insertNode (place : Place) (node : FileNode) :
    List (Place × FileNode) → List (Place × FileNode)
  | [] => [(place, node)]
  | (other, old) :: rest =>
    if place = other then (place, node) :: rest
    else if placeBefore place other then (place, node) :: (other, old) :: rest
    else (other, old) :: insertNode place node rest

def insert (t : FileTree here) (place : Place) (node : FileNode) : FileTree here :=
  ⟨insertNode place node t.nodes⟩

/-- What stands at a place. The working directory and those above it are there always. -/
def node? (t : FileTree here) (place : Place) : Option FileNode :=
  if place <+: here then some .directory else t.nodes.lookup place

/-- The place that a path leads to from a place. There need not be anything at it, but all places on the way
are directories. -/
def walk (t : FileTree here) (place : Place) : List Path.Part → Except FileFault Place
  | [] => .ok place
  | part :: rest =>
    match t.node? place with
    | none => .error .notFound
    | some (.file _) => .error .notDirectory
    | some .directory =>
      match part with
      | .root => walk t [] rest
      | .current => walk t place rest
      | .up => walk t place.dropLast rest
      | .named name => walk t (place ++ [name]) rest

/-- The place that a path leads to. The empty path leads nowhere. -/
def place (t : FileTree here) (path : String) : Except FileFault Place :=
  if path.isEmpty then .error .notFound else t.walk here (Path.parts path)

/-- What stands at a path. -/
def at? (t : FileTree here) (path : String) : Except FileFault FileNode := do
  match t.node? (← t.place path) with
  | some node => .ok node
  | none => .error .notFound

/-- The contents of a file. -/
def read (t : FileTree here) (path : String) : Except FileFault String := do
  match ← t.at? path with
  | .file contents => .ok contents
  | .directory => .error .isDirectory

/-- Writes a file into a directory that is there. -/
def write (t : FileTree here) (path contents : String) : Except FileFault (FileTree here) := do
  let place ← t.place path
  match t.node? place with
  | some .directory => .error .isDirectory
  | _ => .ok (t.insert place (.file contents))

/-- Creates the directories along a path from a place. -/
def createAlong (t : FileTree here) (place : Place) : List Path.Part → Except FileFault (FileTree here)
  | [] => .ok t
  | .root :: rest => createAlong t [] rest
  | .current :: rest => createAlong t place rest
  | .up :: rest => createAlong t place.dropLast rest
  | .named name :: rest =>
    let inner := place ++ [name]
    match t.node? inner with
    | some .directory => createAlong t inner rest
    | some (.file _) => .error (if rest.isEmpty then .exists else .notDirectory)
    | none => createAlong (t.insert inner .directory) inner rest

/-- Creates a directory, and those above it. -/
def createDirectories (t : FileTree here) (path : String) : Except FileFault (FileTree here) :=
  t.createAlong here (Path.parts path)

/-- The name of a place inside a directory, if it is inside. -/
def nameIn? (directory place : Place) : Option String :=
  if place.length = directory.length + 1 ∧ place.dropLast = directory then place.getLast? else none

/-- The name in a directory that leads on to the working directory, if the directory is above that. -/
def nameTowards? (here directory : Place) : Option String :=
  if directory <+: here then (here.drop directory.length).head? else none

/-- The names of what a directory holds. -/
def names (t : FileTree here) (path : String) : Except FileFault (List String) := do
  let place ← t.place path
  match t.node? place with
  | some .directory =>
    .ok ((nameTowards? here place).toList ++ t.nodes.filterMap fun (other, _) => nameIn? place other)
  | some (.file _) => .error .notDirectory
  | none => .error .notFound

/-- The tree of some files, each in the directories that its path names. -/
def ofFiles (files : List (String × String)) : FileTree here :=
  files.foldl (fun t (path, contents) =>
    let t := (t.createDirectories ((Path.parent? path).getD "")).toOption.getD t
    (t.write path contents).toOption.getD t) empty

def reading (work : FileTree here → Except FileFault α) : ExceptT FileFault (StateM (FileTree here)) α :=
  fun t => (work t, t)

/-- Work that changes a tree, unless it fails. -/
def changing (work : FileTree here → Except FileFault (FileTree here)) :
    ExceptT FileFault (StateM (FileTree here)) Unit :=
  fun t =>
    match work t with
    | .ok changed => (.ok (), changed)
    | .error fault => (.error fault, t)

def access : FileAccess (StateM (FileTree here)) where
  isPresent path t := ((t.at? path).toBool, t)
  isFile path t := ((t.read path).toBool, t)
  read path := reading (·.read path)
  write path contents := changing (·.write path contents)
  createDirectories path := changing (·.createDirectories path)
  names path := reading (·.names path)

end FileTree

end TableMapper
