import TableMapper.Files.Fault

/-! # Access to files

What a run needs of a file system: to look for files, to read and write them, to create directories and to
list them. Paths are relative to the working directory unless they start at the root.
-/

namespace TableMapper

/-- Operations on files in a monad. -/
structure FileAccess (m : Type → Type) where
  /-- Whether there is a file or a directory at a path. -/
  isPresent : String → m Bool
  /-- Whether there is a file at a path. -/
  isFile : String → m Bool
  /-- The contents of a file. -/
  read : String → ExceptT FileFault m String
  /-- Writes a file; one that is there already is replaced. -/
  write : String → String → ExceptT FileFault m Unit
  /-- Creates a directory, and those above it. -/
  createDirectories : String → ExceptT FileFault m Unit
  /-- The names of what a directory holds. -/
  names : String → ExceptT FileFault m (List String)

end TableMapper
