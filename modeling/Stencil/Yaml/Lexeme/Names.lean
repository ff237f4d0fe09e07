import Stencil.Yaml.Scalar.Quoted
import Stencil.Yaml.Scalar.Block
import Stencil.Yaml.Lexeme.Basic

/-!
# Anchors, tags and directives

The lexemes that are an indicator with a name behind it. Tags and directives may spell a character of a tag by the
octets of its UTF-8 form, each as a percent sign and two hexadecimal digits.

The rules are those of the scanner of libyaml 0.2.5.
-/

namespace Stencil
namespace Yaml

/-- A character that may follow the name of an anchor although it is no blank. -/
def endsName (c : Char) : Bool :=
  c == '?' || c == ':' || c == ',' || c == ']' || c == '}' || c == '%' || c == '@' || c == '\x60'

/-- Reads the name of an anchor or alias from behind the indicator. -/
def readName (c : Cursor) : Option (String × Cursor) :=
  let name := c.rest.takeWhile isWordChar
  let c := c.skip name.length
  if name != [] && (startsBlank c.rest || c.rest.head?.any endsName) then some (String.ofList name, c) else none

/-! ## Tags -/

/-- A character that may stand in a tag. Inside angle brackets the comma and the brackets may, too. -/
def isTagChar (verbatim : Bool) (c : Char) : Bool :=
  isWordChar c || ";/?:@&=+$.!~*'()%".toList.contains c || (verbatim && (c == ',' || c == '[' || c == ']'))

/-- The octets of a character that are still to come, and the number that those before them make. -/
structure Octets where
  missing : Nat
  value : Nat

/-- The first octet of a character. -/
def Octets.first? (n : Nat) : Option Octets :=
  if n < 0x80 then some ⟨0, n⟩
  else if n < 0xc0 then none
  else if n < 0xe0 then some ⟨1, n - 0xc0⟩
  else if n < 0xf0 then some ⟨2, n - 0xe0⟩
  else if n < 0xf8 then some ⟨3, n - 0xf0⟩
  else none

/-- A further octet of a character. -/
def Octets.next? (o : Octets) (n : Nat) : Option Octets :=
  if 0x80 ≤ n && n < 0xc0 then some ⟨o.missing - 1, o.value * 64 + (n - 0x80)⟩ else none

/-- The octet that a percent sign and two hexadecimal digits spell. -/
def octet? (cs : List Char) : Option Nat :=
  match cs with
  | '%' :: digits => hexNumber? 2 0 digits
  | _ => none

/-- Reads a part of a tag, with what has been read before it. The last character comes first. -/
def readTagText (verbatim : Bool) (c : Cursor) (text : List Char) (octets : Octets) : Option (List Char × Cursor) :=
  match _h : c.rest with
  | [] => if octets.missing = 0 then some (text, c) else none
  | ch :: _ =>
    if ch = '%' then
      let next := (octet? c.rest).bind (if octets.missing = 0 then Octets.first? else octets.next?)
      match next with
      | none => none
      | some o =>
        if o.missing = 0 then readTagText verbatim (c.skip 3) ((charOfNat? o.value).getD '\ufffd' :: text) ⟨0, 0⟩
        else readTagText verbatim (c.skip 3) text o
    else if octets.missing != 0 then none
    else if isTagChar verbatim ch then readTagText verbatim (c.skip 1) (ch :: text) ⟨0, 0⟩
    else some (text, c)
termination_by c.rest.length
decreasing_by all_goals exact Cursor.length_skip_lt _h _

/-- A part of a tag that may not be empty. -/
def readTagPart (verbatim : Bool) (c : Cursor) : Option (String × Cursor) :=
  match readTagText verbatim c [] ⟨0, 0⟩ with
  | some (ch :: text, c) => some (String.ofList (ch :: text).reverse, c)
  | _ => none

/-- An exclamation mark, word characters and, if it is there, another exclamation mark. -/
def readHandle (c : Cursor) : Option (List Char × Cursor) :=
  match c.rest with
  | '!' :: rest =>
    let word := rest.takeWhile isWordChar
    let handle := '!' :: word ++ (if (rest.drop word.length).head? = some '!' then ['!'] else [])
    some (handle, c.skip handle.length)
  | _ => none

/-- The handle ends in an exclamation mark of its own. -/
def isClosedHandle (handle : List Char) : Bool := Nat.blt 1 handle.length && handle.getLast? == some '!'

/-- Reads the handle and the rest of a tag that starts at the cursor. -/
def readTagParts (c : Cursor) : Option (String × String × Cursor) :=
  match c.rest with
  | '!' :: '<' :: _ =>
    match readTagPart true (c.skip 2) with
    | some (uri, c) => if c.rest.head? = some '>' then some ("", uri, c.skip 1) else none
    | none => none
  | _ =>
    match readHandle c with
    | none => none
    | some (handle, c) =>
      if isClosedHandle handle then
        match readTagPart false c with
        | some (suffix, c) => some (String.ofList handle, suffix, c)
        | none => none
      else
        match readTagText false c (handle.drop 1).reverse ⟨0, 0⟩ with
        | some ([], c) => some ("", "!", c)
        | some (suffix, c) => some ("!", String.ofList suffix.reverse, c)
        | none => none

/-- Reads a tag that starts at the cursor. A blank follows it or, inside brackets, a comma. -/
def readTag (inFlow : Bool) (c : Cursor) : Option (Lexeme × Cursor) :=
  match readTagParts c with
  | some (handle, suffix, c) =>
    if startsBlank c.rest || (inFlow && c.rest.head? == some ',') then some (.tag handle suffix, c) else none
  | none => none

/-! ## Directives -/

/-- Reads a number of one to nine decimal digits. -/
def readNumber (c : Cursor) : Option (Nat × Cursor) :=
  let digits := c.rest.takeWhile Char.isDigit
  if digits = [] || Nat.blt 9 digits.length then none
  else some (digits.foldl (fun n d => 10 * n + (d.toNat - '0'.toNat)) 0, c.skip digits.length)

/-- Reads the two numbers of a version, with a dot between them. -/
def readVersion (c : Cursor) : Option (Lexeme × Cursor) :=
  match readNumber c with
  | none => none
  | some (major, c) =>
    if c.rest.head? != some '.' then none
    else
      match readNumber (c.skip 1) with
      | none => none
      | some (minor, c) => some (.version major minor, c)

/-- Reads a tag handle and what it stands for. -/
def readHandleDefinition (c : Cursor) : Option (Lexeme × Cursor) :=
  match readHandle c with
  | none => none
  | some (handle, c) =>
    if !(isClosedHandle handle || handle == ['!']) || !c.rest.head?.any isBlank then none
    else
      match readTagPart true (c.skipWhile isBlank) with
      | none => none
      | some (uri, c) => if startsBlank c.rest then some (.handle (String.ofList handle) uri, c) else none

/-- Reads a directive from behind its percent sign to the end of its line. -/
def readDirective (c : Cursor) : Option (Lexeme × Cursor) :=
  let name := c.rest.takeWhile isWordChar
  let c := c.skip name.length
  if !startsBlank c.rest then none
  else
    let body :=
      if name = "YAML".toList then readVersion (c.skipWhile isBlank)
      else if name = "TAG".toList then readHandleDefinition (c.skipWhile isBlank)
      else none
    match body with
    | none => none
    | some (l, c) =>
      match readBlankLine c with
      | none => none
      | some c => some (l, c)

end Yaml
end Stencil
