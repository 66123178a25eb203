/-! # Faults of file operations

Why an operation on files or directories fails.
-/

namespace TableMapper

/-- Why a file operation fails. -/
inductive FileFault where
  | notFound
  | exists
  | notDirectory
  | isDirectory
  | notUtf8
  | denied
  deriving DecidableEq, Repr

/-- A failed file operation in words, with the number that the system gives it. -/
def FileFault.message : FileFault → String
  | .notFound => "No such file or directory (os error 2)"
  | .exists => "File exists (os error 17)"
  | .notDirectory => "Not a directory (os error 20)"
  | .isDirectory => "Is a directory (os error 21)"
  | .notUtf8 => "stream did not contain valid UTF-8"
  | .denied => "Permission denied (os error 13)"

end TableMapper
