import Stencil.Failure

/-!
# Text filled at once

Text that is used only once is read as a template and filled in one go.
-/

namespace Stencil

/-- The template text with the values in place of its holes. -/
def substitute (template : String) (b : Bindings) : Except Failure String :=
  match Template.parse template with
  | .error m => .error (.malformed m)
  | .ok t =>
    match t.fill b with
    | .error u => .error (.unbound u)
    | .ok text => .ok text

end Stencil
