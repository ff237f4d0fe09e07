import Stencil.Yaml.Cursor

/-!
# Line folding

Between two words of a quoted or plain scalar stand blanks or line breaks. Blanks in a line are kept as they are. Where
a line ends, the blanks around the break are dropped; a single break becomes a space, and of several breaks the first is
dropped.

The rules for scalars here and in the modules for each style are those of the scanner of libyaml 0.2.5.
-/

namespace Stencil
namespace Yaml

/-- What stands between two words, as far as it has been read. The last character read comes first. -/
inductive Gap
  /-- Nothing. -/
  | nothing
  /-- Blanks in a line. -/
  | blanks (text : List Char)
  /-- Line breaks: the first, unless an escape took it away, and those after it. -/
  | breaks (first : Option Char) (more : List Char)
  deriving DecidableEq

namespace Gap

/-- The gap has a line break. -/
def isBroken : Gap → Bool
  | .breaks _ _ => true
  | _ => false

/-- The gap with one more blank. -/
def addBlank (g : Gap) (c : Char) : Gap :=
  match g with
  | .nothing => .blanks [c]
  | .blanks text => .blanks (c :: text)
  | .breaks first more => .breaks first more

/-- The gap with one more line break. -/
def addBreak (g : Gap) (c : Char) : Gap :=
  match g with
  | .breaks first more => .breaks first (breakChar c :: more)
  | _ => .breaks (some (breakChar c)) []

/-- What the gap leaves in the scalar, the last character first. -/
def folded : Gap → List Char
  | .nothing => []
  | .blanks text => text
  | .breaks none more => more
  | .breaks (some c) more => if c = '\n' then (if more = [] then [' '] else more) else more ++ [c]

end Gap
end Yaml
end Stencil
