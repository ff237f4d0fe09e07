/-!
# Faults

Why a directory or file could not be made, written or read.
-/

namespace Stencil

/-- A reason for which a file operation is refused. -/
inductive Fault
  /-- The path holds the character NUL. -/
  | nulCharacter
  /-- A directory on the way, or the file to read, is missing. -/
  | notFound
  /-- Something stands where a directory is to be made. -/
  | alreadyExists
  /-- The path leads through a file. -/
  | notADirectory
  /-- A directory stands where a file is to be written or read. -/
  | isADirectory
  /-- The path, or a name in it, is too long. -/
  | nameTooLong
  /-- The bytes of a file are no UTF-8 text. -/
  | notText
  deriving DecidableEq

/-- The reason in words. -/
def Fault.message : Fault → String
  | .nulCharacter => "file name contained an unexpected NUL byte"
  | .notFound => "No such file or directory (os error 2)"
  | .alreadyExists => "File exists (os error 17)"
  | .notADirectory => "Not a directory (os error 20)"
  | .isADirectory => "Is a directory (os error 21)"
  | .nameTooLong => "File name too long (os error 36)"
  | .notText => "stream did not contain valid UTF-8"

end Stencil
