/-!
# Cursors

A cursor is a position in YAML text: the characters that are still to be read, and where they start. Line breaks are the
line feed, the carriage return, both together, the next-line character and the two Unicode separators.

What counts as a character of YAML, a blank or a line break is what libyaml 0.2.5 takes for it, the reader that
`serde_yaml` 0.9 rests on.
-/

namespace Stencil
namespace Yaml

/-! ## Characters -/

/-- The byte order mark, which may stand at the start of a line. -/
def byteOrderMark : Char := '\ufeff'

/-- The character may occur in YAML text. -/
def isReadable (c : Char) : Bool :=
  let n := c.toNat
  n == 0x09 || n == 0x0a || n == 0x0d || (Nat.ble 0x20 n && Nat.ble n 0x7e) || n == 0x85 ||
    (Nat.ble 0xa0 n && Nat.ble n 0xd7ff) || (Nat.ble 0xe000 n && Nat.ble n 0xfffd) || Nat.ble 0x10000 n

/-- A space or a tab. -/
def isBlank (c : Char) : Bool := c == ' ' || c == '\t'

/-- A character that ends a line. -/
def isBreak (c : Char) : Bool := c == '\n' || c == '\r' || c == '\x85' || c == '\u2028' || c == '\u2029'

/-- A letter, a digit, the hyphen or the underscore, as in the names of anchors, handles and directives. -/
def isWordChar (c : Char) : Bool := c.isAlphanum || c == '-' || c == '_'

/-- The line break as it stands in a scalar: a line feed, unless it is a separator. -/
def breakChar (c : Char) : Char := if c == '\u2028' || c == '\u2029' then c else '\n'

/-- The text is at its end or starts with a blank or a line break. -/
def startsBlank : List Char → Bool
  | [] => true
  | c :: _ => isBlank c || isBreak c

/-- The text starts with the line that begins or ends a document: three hyphens or dots that nothing follows. -/
def startsWithMarker (marker : Char) : List Char → Bool
  | a :: b :: c :: rest => a == marker && b == marker && c == marker && startsBlank rest
  | _ => false

/-- The text starts with a document marker of either kind. -/
def startsMarker (cs : List Char) : Bool := startsWithMarker '-' cs || startsWithMarker '.' cs

/-! ## Cursors -/

/-- A place in the text, counted in characters: from the start, and as line and column. -/
structure Mark where
  index : Nat
  line : Nat
  column : Nat
  deriving DecidableEq

/-- Text that is still to be read, and where it starts. -/
structure Cursor where
  rest : List Char
  mark : Mark

namespace Cursor

/-- The column of the next character. -/
def column (c : Cursor) : Nat := c.mark.column

/-- Moves over characters of one line. -/
def skip (c : Cursor) (n : Nat) : Cursor :=
  ⟨c.rest.drop n, { c.mark with index := c.mark.index + n, column := c.mark.column + n }⟩

/-- Moves over a line break, if one comes next. -/
def skipBreak (c : Cursor) : Cursor :=
  match c.rest with
  | '\r' :: '\n' :: rest => ⟨rest, ⟨c.mark.index + 2, c.mark.line + 1, 0⟩⟩
  | ch :: rest => if isBreak ch then ⟨rest, ⟨c.mark.index + 1, c.mark.line + 1, 0⟩⟩ else c
  | [] => c

/-- Moves over all characters that pass the test. -/
def skipWhile (c : Cursor) (f : Char → Bool) : Cursor := c.skip (c.rest.takeWhile f).length

/-- Moves to the end of the line. -/
def skipLine (c : Cursor) : Cursor := c.skipWhile (!isBreak ·)

@[simp] theorem rest_skip (c : Cursor) (n : Nat) : (c.skip n).rest = c.rest.drop n := rfl

theorem length_skipBreak_lt {c : Cursor} {ch : Char} {rest : List Char} (h : c.rest = ch :: rest)
    (hb : isBreak ch = true) : c.skipBreak.rest.length < c.rest.length := by
  unfold skipBreak
  split
  · next heq => simp only [heq, List.length_cons]; omega
  · next ch' rest' _ heq =>
    rw [h, List.cons.injEq] at heq
    obtain ⟨rfl, rfl⟩ := heq
    simp [hb, h]
  · next heq => simp [h] at heq

theorem length_skipBreak_le (c : Cursor) : c.skipBreak.rest.length ≤ c.rest.length := by
  unfold skipBreak
  split
  · next heq => simp only [heq, List.length_cons]; omega
  · next heq =>
    split
    · simp only [heq, List.length_cons]; omega
    · exact Nat.le_refl _
  · exact Nat.le_refl _

theorem length_skip_lt {c : Cursor} {ch : Char} {rest : List Char} (h : c.rest = ch :: rest) (n : Nat) :
    (c.skip (n + 1)).rest.length < c.rest.length := by
  simp only [rest_skip, h, List.length_drop, List.length_cons]
  omega

end Cursor
end Yaml
end Stencil
