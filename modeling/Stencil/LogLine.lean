import Stencil.Path

/-!
# Log lines

What a run reports while it works.
-/

namespace Stencil

/-- How important a line is. -/
inductive LogLevel
  | debug
  | info
  | error
  deriving DecidableEq

/-- The level as it is printed. -/
def LogLevel.name : LogLevel → String
  | .debug => "DEBUG"
  | .info => "INFO"
  | .error => "ERROR"

/-- One report of a run. -/
inductive LogLine
  /-- The directory is there. -/
  | ensured (dir : Path)
  /-- The file is written. -/
  | written (path : Path)
  /-- The directory could not be made. -/
  | notEnsured (dir : Path)
  /-- The file could not be written. -/
  | notWritten (path : Path)
  /-- The path names no file. -/
  | nameless (path : Path)
  /-- The pattern with this path template could not be drafted. -/
  | notDrafted (template : String)
  /-- The settings in this file are taken. -/
  | loading (config : Path)
  /-- So many files have been made in the directory. -/
  | finished (count : Nat) (dir : Path)
  deriving DecidableEq

namespace LogLine

/-- How important the line is. -/
def level : LogLine → LogLevel
  | .ensured _ => .debug
  | .written _ | .loading _ | .finished _ _ => .info
  | .notEnsured _ | .notWritten _ | .nameless _ | .notDrafted _ => .error

/-- The line in words. -/
def text : LogLine → String
  | .ensured dir => "Ensured directory " ++ dir.quoted
  | .written path => path.quoted
  | .notEnsured dir => "Failed to create directory: " ++ dir.quoted
  | .notWritten path => "Failed to write rendered content to file: " ++ path.quoted
  | .nameless path => "Output path must have a filename: " ++ path.quoted
  | .notDrafted template => "Failed to render template " ++ Text.quoted template
  | .loading config => "Loading config from " ++ config.quoted
  | .finished count dir => "✓ Generated " ++ Nat.repr count ++ " files in " ++ dir.quoted

end LogLine
end Stencil
