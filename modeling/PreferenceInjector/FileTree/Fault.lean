/-!
# Faults of file operations

The ways in which an operation on a tree of directories and files can fail, each with the text
by which the host system reports it.
-/

namespace PreferenceInjector

/-- Why a file operation failed. -/
inductive Fault where
  /-- A path leads nowhere. -/
  | notFound
  /-- A directory is to be made where something is already. -/
  | alreadyExists
  /-- A path goes through, or a listing is asked of, something that is not a directory. -/
  | notDirectory
  /-- A directory is used as a file. -/
  | isDirectory
  /-- A path, or one segment of it, is longer than the system allows. -/
  | nameTooLong
  /-- A path holds the character with code zero. -/
  | zeroInPath
  /-- A file that is read as text is not in UTF-8. -/
  | notText
  deriving DecidableEq, Repr

/-- The text by which a fault is reported. -/
def Fault.text : Fault → String
  | .notFound => "No such file or directory (os error 2)"
  | .alreadyExists => "File exists (os error 17)"
  | .notDirectory => "Not a directory (os error 20)"
  | .isDirectory => "Is a directory (os error 21)"
  | .nameTooLong => "File name too long (os error 36)"
  | .zeroInPath => "file name contained an unexpected NUL byte"
  | .notText => "stream did not contain valid UTF-8"

end PreferenceInjector
