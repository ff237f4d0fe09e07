/-!
# Templates

A template is text with holes. `{name}` is a hole to be filled with the value bound to `name`; `{{` and `}}` stand for a
single brace; every other character stands for itself. This module holds the parts of a template and the ways in which
text can fail to be one.
-/

namespace Stencil

/-- An ASCII letter or the underscore. -/
def isNameStart (c : Char) : Bool := c.isAlpha || c == '_'

/-- An ASCII letter, an ASCII digit or the underscore. -/
def isNameChar (c : Char) : Bool := c.isAlphanum || c == '_'

/-- A letter or underscore, then letters, digits and underscores, all of them ASCII. -/
def isName : List Char → Bool
  | [] => false
  | c :: cs => isNameStart c && cs.all isNameChar

/-- The smallest pieces of template text. -/
inductive Token
  /-- A character other than a brace, standing for itself. -/
  | plain (c : Char)
  /-- `{{`, standing for an opening brace. -/
  | openBrace
  /-- `}}`, standing for a closing brace. -/
  | closeBrace
  /-- `{name}`, standing for the value of the name. -/
  | hole (name : String)
  deriving DecidableEq

/-- The characters that a token is written with. -/
def Token.spelling : Token → List Char
  | .plain c => [c]
  | .openBrace => ['{', '{']
  | .closeBrace => ['}', '}']
  | .hole name => '{' :: name.toList ++ ['}']

/-- The number of bytes that characters take in UTF-8. -/
def byteLength : List Char → Nat
  | [] => 0
  | c :: cs => c.utf8Size + byteLength cs

/-- What is wrong at the brace where template text stops making sense. -/
inductive Defect
  /-- An opening brace comes before the hole is closed. -/
  | nested
  /-- The text ends before the hole is closed. -/
  | unterminated
  /-- The hole has no name. -/
  | nameless
  /-- What stands in the hole is not a name. -/
  | badName (text : String)
  /-- A closing brace that neither closes a hole nor is doubled. -/
  | unmatched
  deriving DecidableEq

/-- The defect in words. -/
def Defect.reason : Defect → String
  | .nested => "nested '\x7b' inside placeholder"
  | .unterminated => "unterminated placeholder"
  | .nameless => "empty placeholder"
  | .badName text => "invalid placeholder name '" ++ text ++ "'"
  | .unmatched => "unmatched '\x7d'"

/-- Text that is not a template: the first defect and the number of bytes before it. -/
structure Malformed where
  template : String
  position : Nat
  defect : Defect
  deriving DecidableEq

/-- The message that reports malformed text. -/
def Malformed.message (m : Malformed) : String :=
  "Malformed template at byte " ++ Nat.repr m.position ++ ": " ++ m.defect.reason ++ "\n" ++ m.template

/-- A stretch of a template: text to copy or a hole to fill. -/
inductive Segment
  | literal (text : String)
  | hole (name : String)
  deriving DecidableEq

/-- Well-formed template text, with the segments that it reads as. -/
structure Template where
  source : String
  segments : List Segment
  deriving DecidableEq

/-- The names of the holes from left to right, a repeated name as often as it stands there. -/
def Template.names (t : Template) : List String :=
  t.segments.filterMap fun
    | .literal _ => none
    | .hole name => some name

end Stencil
