import TableMapper.CommandLine.Program
import TableMapper.Pattern.Native

/-! # The program

The outermost layer: files of the system, the arguments of the call, and the two channels for output. Patterns
are those of this library.
-/

namespace TableMapper

/-- What an error of the system is about. -/
def faultOf : IO.Error → FileFault
  | .noFileOrDirectory .. => .notFound
  | .noSuchThing .. => .notFound
  | .alreadyExists .. => .exists
  | .inappropriateType _ code _ => if code = 21 then .isDirectory else .notDirectory
  | .permissionDenied .. => .denied
  | _ => .notUtf8

/-- An operation of the system as one that may fail. -/
def attemptIO (work : IO α) : ExceptT FileFault IO α := ExceptT.mk do
  try pure (.ok (← work))
  catch e => pure (.error (faultOf e))

/-- Whether an operation of the system succeeds. -/
def succeeds (work : IO Bool) : IO Bool := do
  try work catch _ => pure false

def systemFiles : FileAccess IO where
  isPresent path := succeeds do
    let _ ← IO.FS.realPath path
    pure true
  isFile path := succeeds do
    pure (!(← (← IO.FS.realPath path).isDir))
  read path := attemptIO (IO.FS.readFile path)
  write path contents := attemptIO (IO.FS.writeFile path contents)
  createDirectories path := attemptIO (IO.FS.createDirAll path)
  names path := attemptIO do
    let entries ← (← IO.FS.realPath path).readDir
    pure (entries.toList.map (·.fileName))

end TableMapper

open TableMapper in
open scoped TableMapper.Pattern in
/-- Runs the program. Sources are written as they are generated. -/
def main (args : List String) : IO UInt32 := do
  let outcome ← CommandLine.run id systemFiles args
  IO.print outcome.outputText
  IO.eprint outcome.complaint
  pure (UInt32.ofNat outcome.exitCode)
