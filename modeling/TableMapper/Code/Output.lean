import TableMapper.Code.Generation
import TableMapper.Files.Access

/-! # Writing generated files

Generated files go into directories that are created for them, each laid out by a formatter that is chosen where
a program is put together. Once all are written, every directory gets an index of the modules in it.
-/

namespace TableMapper

/-- A file operation for a run. -/
def FileAccess.attempt [Monad m] (wrap : FileFault → GenerationError) (work : ExceptT FileFault m α) :
    ExceptT GenerationError m α :=
  work.adapt wrap

/-- The module that a name in a directory stands for; the index itself is none. -/
def moduleOf? (name : String) : Option String :=
  match Path.splitExtension name with
  | (stem, some "rs") => if stem = "mod" then none else some stem
  | _ => none

/-- The index of a directory with the given modules: it declares them and exports what is in them. -/
def moduleIndex (modules : List String) : String :=
  let sorted := modules.mergeSort fun a b => !(b < a)
  "// Generated modules\n\n" ++ String.join (sorted.map fun name => "pub mod " ++ name ++ ";\n") ++ "\n" ++
    String.join (sorted.map fun name => "pub use " ++ name ++ "::*;\n")

namespace Sink

def writeIndex [Monad m] (fs : FileAccess m) (directory : String) : ExceptT GenerationError m Unit := do
  let names ← FileAccess.attempt .file (fs.names directory)
  FileAccess.attempt .file
    (fs.write (Path.join directory "mod.rs") (moduleIndex (names.filterMap moduleOf?)))

/-- Writes the indexes of directories in order. -/
def writeIndexes [Monad m] (fs : FileAccess m) : List String → ExceptT GenerationError m Unit
  | [] => pure ()
  | directory :: rest => do
    writeIndex fs directory
    writeIndexes fs rest

/-- Creates the directory of a file. -/
def createParent [Monad m] (fs : FileAccess m) (path : String) : ExceptT GenerationError m Unit :=
  match Path.parent? path with
  | some parent => FileAccess.attempt (.outputDirectory parent) (fs.createDirectories parent)
  | none => pure ()

/-- The receiver that writes files, laid out by a formatter. -/
def toFiles [Monad m] (format : String → String) (fs : FileAccess m) : Sink m where
  write file := do
    createParent fs file.path
    FileAccess.attempt .file (fs.write file.path (format file.contents))
  finish directories := writeIndexes fs directories

end Sink

namespace Resolution

/-- The directories for generated files, in the order of the models. -/
def directories (r : Resolution) : List String :=
  r.models.values.flatMap fun m => Artifact.all.filterMap (r.artifactDirectory m.toTableModel)

/-- Creates directories in order. -/
def createAll [Monad m] (fs : FileAccess m) : List String → ExceptT GenerationError m Unit
  | [] => pure ()
  | directory :: rest => do
    FileAccess.attempt (.outputDirectory directory) (fs.createDirectories directory)
    createAll fs rest

end Resolution

end TableMapper
