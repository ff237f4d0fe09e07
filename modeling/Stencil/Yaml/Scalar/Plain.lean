import Stencil.Yaml.Scalar.Folding

/-!
# Plain scalars

A plain scalar has no quotes and no escapes. It ends before a colon that a blank follows, before a comment, before a
line that is not indented far enough, before a document marker and, inside brackets, before a flow indicator. Lines are
folded.
-/

namespace Stencil
namespace Yaml

/-- The characters with a meaning of their own inside brackets, where they end a plain scalar. -/
def isFlowIndicator (c : Char) : Bool := c == ',' || c == '[' || c == ']' || c == '{' || c == '}'

/-- A plain scalar that has been read: its text, what comes after it, and whether that is on another line. -/
structure PlainScalar where
  text : String
  after : Cursor
  broken : Bool

/-- Reads a plain scalar. Outside of brackets its lines are indented to the margin. What has been read comes with its
last character first, and with the gap that follows it. -/
def readPlain (inFlow : Bool) (margin : Nat) (c : Cursor) (text : List Char) (gap : Gap) : Option PlainScalar :=
  match _h : c.rest with
  | [] => some ⟨String.ofList text.reverse, c, gap.isBroken⟩
  | ch :: rest =>
    if isBlank ch then
      if gap.isBroken && Nat.blt c.column margin && ch == '\t' then none
      else readPlain inFlow margin (c.skip 1) text (gap.addBlank ch)
    else if _hb : isBreak ch then readPlain inFlow margin c.skipBreak text (gap.addBreak ch)
    else if gap != .nothing && (!inFlow && Nat.blt c.column margin || ch == '#') ||
        c.column == 0 && startsMarker c.rest then
      some ⟨String.ofList text.reverse, c, gap.isBroken⟩
    else if inFlow && ch == ':' && rest.head?.any (fun d => isFlowIndicator d || d == '?') then none
    else if ch == ':' && startsBlank rest || inFlow && isFlowIndicator ch then
      some ⟨String.ofList text.reverse, c, gap.isBroken⟩
    else readPlain inFlow margin (c.skip 1) (ch :: (gap.folded ++ text)) .nothing
termination_by c.rest.length
decreasing_by
  all_goals first
    | exact Cursor.length_skip_lt _h _
    | exact Cursor.length_skipBreak_lt _h _hb

end Yaml
end Stencil
