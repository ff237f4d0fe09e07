/-!
# Lexemes

The units that YAML text is made of. Some are not written: the start of a block collection and its end follow from the
indentation, and a key without a question mark is known by the colon behind it.

The units are the tokens of libyaml 0.2.5, without their places in the text.
-/

namespace Stencil
namespace Yaml

/-- A unit of YAML text. -/
inductive Lexeme
  /-- Nothing is left to read. -/
  | streamEnd
  /-- The directive that gives the version of the language. -/
  | version (major minor : Nat)
  /-- The directive that lets a tag handle stand for the start of a tag. -/
  | handle (name uri : String)
  /-- Three hyphens. -/
  | documentStart
  /-- Three dots. -/
  | documentEnd
  /-- A block sequence begins. -/
  | blockSequence
  /-- A block mapping begins. -/
  | blockMapping
  /-- The innermost block collection is over. -/
  | blockEnd
  | openBracket
  | closeBracket
  | openBrace
  | closeBrace
  | comma
  /-- The hyphen before an item. -/
  | dash
  /-- A key follows. -/
  | key
  /-- The colon before a value. -/
  | value
  | anchor (name : String)
  | alias (name : String)
  /-- A tag: its handle, and the rest of it. A tag without a handle is complete. -/
  | tag (handle suffix : String)
  /-- A scalar, which may be plain. -/
  | scalar (text : String) (isPlain : Bool)
  deriving DecidableEq

end Yaml
end Stencil
