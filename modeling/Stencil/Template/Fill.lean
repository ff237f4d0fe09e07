import Stencil.Template.Parse
import Stencil.Bindings

/-!
# Filling templates

A template is filled by copying its literals and putting for each hole the value bound to its name, exactly as it is:
a brace in a value is only a character. The leftmost hole without a value is reported, and then nothing is produced.
-/

namespace Stencil

/-- A hole that cannot be filled: its name has no value. -/
structure Unbound where
  name : String
  template : String
  deriving DecidableEq

/-- The message that reports a name without a value. -/
def Unbound.message (u : Unbound) : String :=
  "Unknown parameter '" ++ u.name ++ "' in template:\n" ++ u.template

/-- The text of segments, or the first name that has no value. -/
def Segment.fill (b : Bindings) : List Segment → Except String String
  | [] => .ok ""
  | .literal text :: rest =>
    match fill b rest with
    | .error name => .error name
    | .ok filled => .ok (text ++ filled)
  | .hole name :: rest =>
    match b.get? name with
    | none => .error name
    | some value =>
      match fill b rest with
      | .error name => .error name
      | .ok filled => .ok (value ++ filled)

/-- The text of the template under the bindings. -/
def Template.fill (t : Template) (b : Bindings) : Except Unbound String :=
  match Segment.fill b t.segments with
  | .error name => .error ⟨name, t.source⟩
  | .ok text => .ok text

end Stencil
