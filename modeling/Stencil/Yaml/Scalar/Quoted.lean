import Stencil.Yaml.Scalar.Folding

/-!
# Quoted scalars

Between single quotes the only escape is the doubled quote. Between double quotes a backslash starts an escape: for one
character, for a code point in hexadecimal, or for a line break that leaves nothing behind. Lines are folded. A document
marker at the start of a line ends the document, so it may not stand in a quoted scalar.
-/

namespace Stencil
namespace Yaml

/-- The kinds of quotes. -/
inductive Quote
  | single
  | double
  deriving DecidableEq

/-- The character that a backslash and the given character stand for. -/
def escaped? (c : Char) : Option Char :=
  if c = '0' then some '\x00'
  else if c = 'a' then some '\x07'
  else if c = 'b' then some '\x08'
  else if c = 't' || c = '\t' then some '\t'
  else if c = 'n' then some '\n'
  else if c = 'v' then some '\x0b'
  else if c = 'f' then some '\x0c'
  else if c = 'r' then some '\r'
  else if c = 'e' then some '\x1b'
  else if c = ' ' then some ' '
  else if c = '"' then some '"'
  else if c = '/' then some '/'
  else if c = '\\' then some '\\'
  else if c = 'N' then some '\x85'
  else if c = '_' then some '\xa0'
  else if c = 'L' then some '\u2028'
  else if c = 'P' then some '\u2029'
  else none

/-- The number of hexadecimal digits after a backslash and the given character. -/
def escapeWidth? (c : Char) : Option Nat :=
  if c = 'x' then some 2 else if c = 'u' then some 4 else if c = 'U' then some 8 else none

/-- The value of a hexadecimal digit. -/
def hexDigit? (c : Char) : Option Nat :=
  let n := c.toNat
  if Nat.ble 0x30 n && Nat.ble n 0x39 then some (n - 0x30)
  else if Nat.ble 0x41 n && Nat.ble n 0x46 then some (n - 0x41 + 10)
  else if Nat.ble 0x61 n && Nat.ble n 0x66 then some (n - 0x61 + 10)
  else none

/-- The number that exactly the given number of hexadecimal digits at the start of the text spell, after a number
already read. -/
def hexNumber? : Nat → Nat → List Char → Option Nat
  | 0, value, _ => some value
  | _ + 1, _, [] => none
  | n + 1, value, c :: rest =>
    match hexDigit? c with
    | none => none
    | some d => hexNumber? n (16 * value + d) rest

/-- The character with the given code point, if there is one. -/
def charOfNat? (n : Nat) : Option Char := if h : n.isValidChar then some (Char.ofNatAux n h) else none

/-- Reads a quoted scalar from behind its opening quote. What has been read comes with its last character first, and
with the gap that follows it. -/
def readQuoted (q : Quote) (c : Cursor) (text : List Char) (gap : Gap) : Option (String × Cursor) :=
  match _h : c.rest with
  | [] => none
  | ch :: rest =>
    if isBlank ch then readQuoted q (c.skip 1) text (gap.addBlank ch)
    else if _hb : isBreak ch then readQuoted q c.skipBreak text (gap.addBreak ch)
    else if c.column = 0 && startsMarker c.rest then none
    else
      let text := gap.folded ++ text
      match q with
      | .single =>
        if ch = '\'' then
          if rest.head? = some '\'' then readQuoted q (c.skip 2) ('\'' :: text) .nothing
          else some (String.ofList text.reverse, c.skip 1)
        else readQuoted q (c.skip 1) (ch :: text) .nothing
      | .double =>
        if ch = '"' then some (String.ofList text.reverse, c.skip 1)
        else if ch = '\\' then
          match rest with
          | [] => none
          | e :: digits =>
            if isBreak e then readQuoted q (c.skip 1).skipBreak text (.breaks none [])
            else
              match escapeWidth? e with
              | some n =>
                match (hexNumber? n 0 digits).bind charOfNat? with
                | none => none
                | some x => readQuoted q (c.skip (n + 2)) (x :: text) .nothing
              | none =>
                match escaped? e with
                | none => none
                | some x => readQuoted q (c.skip 2) (x :: text) .nothing
        else readQuoted q (c.skip 1) (ch :: text) .nothing
termination_by c.rest.length
decreasing_by
  all_goals first
    | exact Cursor.length_skip_lt _h _
    | exact Cursor.length_skipBreak_lt _h _hb
    | exact Nat.lt_of_le_of_lt (Cursor.length_skipBreak_le _) (Cursor.length_skip_lt _h 0)

end Yaml
end Stencil
