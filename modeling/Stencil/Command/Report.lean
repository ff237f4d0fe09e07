import Stencil.Failure
import Stencil.Settings.Load

/-!
# Error reports

A run that fails prints what it was doing and, below, the causes: a single one indented, several with numbers. Further
lines of a cause are indented to where its text starts.

The form is that in which `anyhow` 1 prints an error with its causes.
-/

namespace Stencil
namespace Command

/-- Why a run failed. -/
inductive RunError
  /-- There are no settings. -/
  | settings (e : SettingsError)
  /-- There is no kit. -/
  | kit (e : SettingsError)
  /-- The kit could not be produced in the directory. -/
  | production (dir : Path) (f : Failure)
  deriving DecidableEq

namespace RunError

/-- What the run was doing. -/
def context : RunError → String
  | .settings _ => "Failed to load config"
  | .kit _ => "Failed to load templates"
  | .production dir _ => "Failed to generate plugin in " ++ dir.quoted

/-- The error, and what lies behind it. -/
def settingsCauses (e : SettingsError) : List String :=
  match e with
  | .unread fault => [e.message, fault.message]
  | .undecoded flaw => [e.message, flaw.message]
  | .malformed m => [e.message, m.message]

/-- The causes, from the nearest to the farthest. -/
def causes : RunError → List String
  | .settings e | .kit e => settingsCauses e
  | .production _ f => f.message :: f.cause?.toList

/-- Text with a margin after every line break. -/
def indented (margin : String) (text : String) : String :=
  String.ofList (text.toList.flatMap fun c => if c = '\n' then '\n' :: margin.toList else [c])

/-- The causes with their numbers, from the given one on. -/
def numberedCauses (n : Nat) : List String → String
  | [] => ""
  | c :: cs =>
    let number := Nat.repr n
    "\n" ++ "".pushn ' ' (5 - number.length) ++ number ++ ": " ++ indented "       " c ++ numberedCauses (n + 1) cs

/-- What is printed. -/
def report (e : RunError) : String :=
  let head := "Error: " ++ e.context
  match e.causes with
  | [] => head ++ "\n"
  | [c] => head ++ "\n\nCaused by:\n    " ++ indented "    " c ++ "\n"
  | cs => head ++ "\n\nCaused by:" ++ numberedCauses 0 cs ++ "\n"

end RunError
end Command
end Stencil
