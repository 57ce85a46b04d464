/-!
# System errors

The errors that file operations and the start of programs give, with the wording of the system.

## Main definitions

* `SystemError`: the errors.
* `SystemError.message`: their wording.
-/

namespace BenchSweep

/-- Why the system refuses an operation. -/
inductive SystemError where
  | noEntry
  | argumentsTooLong
  | notExecutable
  | denied
  | busy
  | exists
  | notDirectory
  | isDirectory
  | invalid
  | nameTooLong
  | notEmpty
  /-- A program name or an argument holds a NUL character. -/
  | nulInArgument
  /-- A path holds a NUL character. -/
  | nulInPath
  /-- A buffer of a fixed size is full. -/
  | bufferFull
  /-- A file that is read as text is not UTF-8. -/
  | notText
  deriving DecidableEq, Repr

/-- The wording of a system error. -/
def SystemError.message : SystemError → String
  | .noEntry => "No such file or directory (os error 2)"
  | .argumentsTooLong => "Argument list too long (os error 7)"
  | .notExecutable => "Exec format error (os error 8)"
  | .denied => "Permission denied (os error 13)"
  | .busy => "Device or resource busy (os error 16)"
  | .exists => "File exists (os error 17)"
  | .notDirectory => "Not a directory (os error 20)"
  | .isDirectory => "Is a directory (os error 21)"
  | .invalid => "Invalid argument (os error 22)"
  | .nameTooLong => "File name too long (os error 36)"
  | .notEmpty => "Directory not empty (os error 39)"
  | .nulInArgument => "nul byte found in provided data"
  | .nulInPath => "file name contained an unexpected NUL byte"
  | .bufferFull => "failed to write whole buffer"
  | .notText => "stream did not contain valid UTF-8"

end BenchSweep
