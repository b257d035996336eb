/-!
# Refusals of the operating system

The operating system refuses an operation for one of the reasons listed here. Each has
a number, which its message repeats.
-/

set_option autoImplicit false

namespace Polyglot.Host

/-- A reason for refusing an operation. -/
inductive OsError where
  /-- The operation is not permitted. -/
  | notPermitted
  /-- A file or directory does not exist. -/
  | notFound
  /-- A file is in a format that cannot be executed. -/
  | badFormat
  /-- Access to a file is denied. -/
  | accessDenied
  /-- A file exists already. -/
  | exists
  /-- Something on the way is not a directory. -/
  | notDirectory
  /-- A file was asked for and a directory is there. -/
  | isDirectory
  /-- An argument makes no sense. -/
  | invalidArgument
  /-- A name or a path is too long. -/
  | nameTooLong
  /-- A directory is not empty. -/
  | notEmpty
  /-- Too many symbolic links lead on. -/
  | tooManyLinks
  /-- An address is in use. -/
  | addressInUse
  /-- No network leads to an address. -/
  | networkUnreachable
  /-- Nobody listens on an address. -/
  | connectionRefused
  /-- A text that goes to the operating system contains a zero. -/
  | embeddedZero
  /-- The name of a file contains a zero. -/
  | zeroInName
  deriving DecidableEq, Repr

namespace OsError

/-- The wording of a reason, without its number. -/
def words : OsError → String
  | .notPermitted => "Operation not permitted"
  | .notFound => "No such file or directory"
  | .badFormat => "Exec format error"
  | .accessDenied => "Permission denied"
  | .exists => "File exists"
  | .notDirectory => "Not a directory"
  | .isDirectory => "Is a directory"
  | .invalidArgument => "Invalid argument"
  | .nameTooLong => "File name too long"
  | .notEmpty => "Directory not empty"
  | .tooManyLinks => "Too many levels of symbolic links"
  | .addressInUse => "Address already in use"
  | .networkUnreachable => "Network is unreachable"
  | .connectionRefused => "Connection refused"
  | .embeddedZero => "nul byte found in provided data"
  | .zeroInName => "file name contained an unexpected NUL byte"

/-- The number of a reason, if it has one. -/
def number? : OsError → Option Nat
  | .notPermitted => some 1
  | .notFound => some 2
  | .badFormat => some 8
  | .accessDenied => some 13
  | .exists => some 17
  | .notDirectory => some 20
  | .isDirectory => some 21
  | .invalidArgument => some 22
  | .nameTooLong => some 36
  | .notEmpty => some 39
  | .tooManyLinks => some 40
  | .addressInUse => some 98
  | .networkUnreachable => some 101
  | .connectionRefused => some 111
  | .embeddedZero => none
  | .zeroInName => none

/-- The message of a reason. -/
def message (reason : OsError) : String :=
  match reason.number? with
  | some number => reason.words ++ " (os error " ++ toString number ++ ")"
  | none => reason.words

end OsError

end Polyglot.Host
