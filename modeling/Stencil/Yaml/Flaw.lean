/-!
# Flaws

Why YAML text is not the data that was asked for.

These are the kinds of errors of `serde_yaml` 0.9; where in the text an error was found, and in which words, is not
kept.
-/

namespace Stencil
namespace Yaml

/-- What is wrong with the text. -/
inductive Flaw
  /-- A mapping lacks a field that it must have. -/
  | missingField (name : String)
  /-- A mapping has a field twice. -/
  | duplicateField (name : String)
  /-- A node is not of the kind that is asked for. -/
  | wrongKind
  /-- The text is not a single YAML document, or a node is tagged as something that it is not. -/
  | unreadable
  deriving DecidableEq

/-- The flaw in words. -/
def Flaw.message : Flaw → String
  | .missingField name => "missing field `" ++ name ++ "`"
  | .duplicateField name => "duplicate field `" ++ name ++ "`"
  | .wrongKind => "invalid type"
  | .unreadable => "syntax"

end Yaml
end Stencil
