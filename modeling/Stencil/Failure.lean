import Stencil.Template.Fill
import Stencil.Path
import Stencil.Fault

/-!
# Failures

What can go wrong between template text and written files, and the message for each.
-/

namespace Stencil

/-- Why files could not be made. -/
inductive Failure
  /-- Text that is not a template. -/
  | malformed (m : Malformed)
  /-- A hole whose name has no value. -/
  | unbound (u : Unbound)
  /-- A path that names no file. -/
  | nameless (path : Path)
  /-- A directory that cannot be made. -/
  | directory (path : Path) (fault : Fault)
  /-- A file that cannot be written. -/
  | file (path : Path) (fault : Fault)
  deriving DecidableEq

namespace Failure

/-- What is wrong with a path that names no file. -/
def namelessCause : String := "output path must have a filename"

/-- What the operating system, or the check before it, says about a path. -/
def cause? : Failure → Option String
  | .malformed _ | .unbound _ => none
  | .nameless _ => some namelessCause
  | .directory _ fault | .file _ fault => some fault.message

/-- The sentence for a path that could not be written, with the cause. -/
def writeMessage (path : Path) (cause : String) : String := "Failed to write " ++ path.quoted ++ ": " ++ cause

/-- The failure in words. -/
def message : Failure → String
  | .malformed m => m.message
  | .unbound u => u.message
  | .nameless path => writeMessage path namelessCause
  | .directory path fault | .file path fault => writeMessage path fault.message

end Failure
end Stencil
