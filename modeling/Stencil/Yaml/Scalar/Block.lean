import Stencil.Yaml.Cursor

/-!
# Block scalars

A block scalar is introduced by a bar, which keeps its line breaks, or by an angle bracket, which folds them. Its lines
are those that are indented by a number of columns, either given in the header or taken from the first line that holds
something. The header also says what becomes of the line breaks at the end.

The rules are those of the scanner of libyaml 0.2.5.
-/

namespace Stencil
namespace Yaml

/-- What becomes of the line breaks at the end of a block scalar. -/
inductive Chomping
  /-- None is kept. -/
  | strip
  /-- One is kept. -/
  | clip
  /-- All are kept. -/
  | keep
  deriving DecidableEq

/-- What the header of a block scalar says: the chomping, and the indentation relative to the collection around it. -/
structure BlockHeader where
  chomping : Chomping
  indentation : Option Nat
  deriving DecidableEq

/-- The chomping that a character stands for. -/
def chomping? (c : Char) : Option Chomping :=
  if c = '+' then some .keep else if c = '-' then some .strip else none

/-- A sign and a digit in either order, each of which may be missing, with what follows them. Zero is refused. -/
def readBlockHeader (c : Cursor) : Option (BlockHeader × Cursor) :=
  let digit (h : BlockHeader) (c : Cursor) : Option (BlockHeader × Cursor) :=
    match c.rest with
    | d :: _ =>
      if d.isDigit then
        if d = '0' then none else some ({ h with indentation := some (d.toNat - '0'.toNat) }, c.skip 1)
      else some (h, c)
    | [] => some (h, c)
  match c.rest.head?.bind chomping? with
  | some chomping => digit ⟨chomping, none⟩ (c.skip 1)
  | none =>
    match digit ⟨.clip, none⟩ c with
    | none => none
    | some (h, c) =>
      match h.indentation, c.rest.head?.bind chomping? with
      | some _, some chomping => some ({ h with chomping := chomping }, c.skip 1)
      | _, _ => some (h, c)

/-- The rest of a line that may hold blanks and a comment only. -/
def readBlankLine (c : Cursor) : Option Cursor :=
  let c := c.skipWhile isBlank
  let c := if c.rest.head? = some '#' then c.skipLine else c
  if c.rest.isEmpty || c.rest.head?.any isBreak then some c.skipBreak else none

/-- Line breaks between the lines of a block scalar. -/
structure BlockBreaks where
  /-- The breaks, the last one first. -/
  breaks : List Char
  /-- The greatest column that their lines reach. -/
  reached : Nat
  /-- What comes after them. -/
  after : Cursor

/-- Reads line breaks and, up to the indentation if it is known, the spaces around them. A tab may not stand where a
space of the indentation is expected. -/
def readBlockBreaks (indentation : Option Nat) (c : Cursor) (breaks : List Char) (reached : Nat) : Option BlockBreaks :=
  match _h : c.rest with
  | [] => some ⟨breaks, max reached c.column, c⟩
  | ch :: _ =>
    let within := indentation.all (Nat.blt c.column ·)
    if within && ch == ' ' then readBlockBreaks indentation (c.skip 1) breaks reached
    else if within && ch == '\t' then none
    else if _hb : isBreak ch then
      readBlockBreaks indentation c.skipBreak (breakChar ch :: breaks) (max reached c.column)
    else some ⟨breaks, max reached c.column, c⟩
termination_by c.rest.length
decreasing_by
  · exact Cursor.length_skip_lt _h 0
  · exact Cursor.length_skipBreak_lt _h _hb

theorem length_le_of_readBlockBreaks {indentation : Option Nat} {c : Cursor} {breaks : List Char} {reached : Nat}
    {r : BlockBreaks} (h : readBlockBreaks indentation c breaks reached = some r) :
    r.after.rest.length ≤ c.rest.length := by
  fun_induction readBlockBreaks indentation c breaks reached with
  | case1 => cases h; exact Nat.le_refl _
  | case2 _ _ _ _ _ heq _ _ ih => exact Nat.le_of_lt (Nat.lt_of_le_of_lt (ih h) (Cursor.length_skip_lt heq 0))
  | case3 => simp at h
  | case4 _ _ _ _ _ heq _ _ _ hb ih =>
    exact Nat.le_of_lt (Nat.lt_of_le_of_lt (ih h) (Cursor.length_skipBreak_lt heq hb))
  | case5 => cases h; exact Nat.le_refl _

/-- What has been read of a block scalar, each part with its last character first. -/
structure BlockText where
  /-- The lines without the breaks after the last one. -/
  text : List Char
  /-- The break that ends the last line. -/
  lineEnd : List Char
  /-- The breaks after it. -/
  breaks : List Char
  /-- The last line starts with a blank. -/
  blank : Bool

/-- The text with a new line: a single break between two lines that start with no blank is folded to a space, and of
several the first is dropped. -/
def BlockText.join (t : BlockText) (isFolded blank : Bool) : List Char :=
  if isFolded && t.lineEnd == ['\n'] && !t.blank && !blank then
    if t.breaks = [] then ' ' :: t.text else t.breaks ++ t.text
  else t.breaks ++ (t.lineEnd ++ t.text)

/-- Reads the lines that start at the indentation. -/
def readBlockLines (isFolded : Bool) (indentation : Nat) (c : Cursor) (t : BlockText) : Option (BlockText × Cursor) :=
  match _h : c.rest with
  | [] => some (t, c)
  | ch :: rest =>
    if c.column != indentation then some (t, c)
    else
      let line := rest.takeWhile (!isBreak ·)
      let atEnd := c.skip (line.length + 1)
      let text := line.reverse ++ ch :: t.join isFolded (isBlank ch)
      match _hr : readBlockBreaks (some indentation) atEnd.skipBreak [] 0 with
      | none => none
      | some r =>
        readBlockLines isFolded indentation r.after
          ⟨text, (atEnd.rest.head?.map breakChar).toList, r.breaks, isBlank ch⟩
termination_by c.rest.length
decreasing_by
  exact Nat.lt_of_le_of_lt (Nat.le_trans (length_le_of_readBlockBreaks _hr) (Cursor.length_skipBreak_le _))
    (Cursor.length_skip_lt _h _)

/-- Reads a block scalar from behind its indicator. Its lines are indented beyond the collection around it, whose
content starts at the margin. -/
def readBlock (isFolded : Bool) (margin : Nat) (c : Cursor) : Option (String × Cursor) :=
  match readBlockHeader c with
  | none => none
  | some (header, c) =>
    match readBlankLine c with
    | none => none
    | some c =>
      let given := header.indentation.map (margin - 1 + ·)
      match readBlockBreaks given c [] 0 with
      | none => none
      | some r =>
        let indentation := given.getD (max r.reached (max margin 1))
        match readBlockLines isFolded indentation r.after ⟨[], [], r.breaks, false⟩ with
        | none => none
        | some (t, c) =>
          let text :=
            match header.chomping with
            | .strip => t.text
            | .clip => t.lineEnd ++ t.text
            | .keep => t.breaks ++ (t.lineEnd ++ t.text)
          some (String.ofList text.reverse, c)

end Yaml
end Stencil
