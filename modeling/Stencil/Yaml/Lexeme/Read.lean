import Stencil.Yaml.Lexeme.Names
import Stencil.Yaml.Scalar.Plain

/-!
# Reading lexemes

Text is read lexeme by lexeme. A key that has no question mark shows only at the colon behind it: a lexeme with which a
key may start is a `Candidate`, and when the colon comes the lexeme `key` is put in front of it. As long as the
candidate stands at the head of the queue nothing is released. A candidate is dropped when its line is over or 1024
characters have passed; at a place where only a key may stand, that is an error.

The indentation of the block collections around the cursor is kept as margins: the margin of a collection is the first
column behind the column of its items, and it is 0 outside of all collections.

The rules are those of the scanner of libyaml 0.2.5. That looks at the characters of a text as it reads on, 16 KiB at a
time, and here all are looked at first; so a longer text may be refused here for a character that stands behind what the
scanner under `serde_yaml` 0.9 would refuse it for.
-/

namespace Stencil
namespace Yaml

/-- A lexeme that may turn out to start a key. -/
structure Candidate where
  /-- The number of lexemes before it. -/
  number : Nat
  /-- Only a key may stand here. -/
  required : Bool
  /-- Where it starts. -/
  mark : Mark

/-- How far the text has been read. -/
structure LexState where
  cursor : Cursor
  /-- Lexemes that have been read and not yet released. -/
  queue : List Lexeme
  /-- The number of lexemes that have been released. -/
  released : Nat
  /-- The margin of the innermost block collection. -/
  margin : Nat
  /-- The margins of the block collections around it. -/
  outerMargins : List Nat
  /-- A key may start at the next lexeme. -/
  keyAllowed : Bool
  /-- The candidate inside the innermost brackets. -/
  candidate : Option Candidate
  /-- The candidates outside of them, one for each pair of brackets. -/
  outerCandidates : List (Option Candidate)
  /-- The end of the text has been read. -/
  ended : Bool

namespace LexState

/-- Before anything is read. -/
def start (text : List Char) : LexState where
  cursor := ⟨text, ⟨0, 0, 0⟩⟩
  queue := []
  released := 0
  margin := 0
  outerMargins := []
  keyAllowed := true
  candidate := none
  outerCandidates := []
  ended := false

/-- The cursor stands inside brackets. -/
def inFlow (s : LexState) : Bool := !s.outerCandidates.isEmpty

/-- Puts a lexeme at the end of the queue. -/
def push (s : LexState) (l : Lexeme) : LexState := { s with queue := s.queue ++ [l] }

/-- Puts a lexeme in front of the one with the given number. -/
def pushBefore (s : LexState) (number : Nat) (l : Lexeme) : LexState :=
  let k := number - s.released
  { s with queue := s.queue.take k ++ l :: s.queue.drop k }

/-! ## Candidates -/

/-- A key cannot be as long as from the candidate to the mark. -/
def outdated (m : Mark) (k : Candidate) : Bool := Nat.blt k.mark.line m.line || Nat.blt (k.mark.index + 1024) m.index

/-- The candidate, unless it is outdated. An outdated candidate that is required is an error. -/
def refreshed (m : Mark) : Option Candidate → Option (Option Candidate)
  | none => some none
  | some k => if outdated m k then (if k.required then none else some none) else some (some k)

/-- Drops the candidates that are outdated. -/
def refresh (s : LexState) : Option LexState := do
  let outer ← s.outerCandidates.mapM (refreshed s.cursor.mark)
  let inner ← refreshed s.cursor.mark s.candidate
  return { s with candidate := inner, outerCandidates := outer }

/-- The lexeme at the head of the queue may turn out to start a key. -/
def holdsHead (s : LexState) : Bool :=
  (s.candidate :: s.outerCandidates).any fun k => k.any (·.number == s.released)

/-- Drops the innermost candidate, which may not be a required one. -/
def dropCandidate (s : LexState) : Option LexState :=
  if s.candidate.any (·.required) then none else some { s with candidate := none }

/-- Makes the next lexeme a candidate, where a key may start. -/
def saveCandidate (s : LexState) : Option LexState :=
  if s.keyAllowed then do
    let s ← s.dropCandidate
    let required := !s.inFlow && s.margin == s.cursor.column + 1
    return { s with candidate := some ⟨s.released + s.queue.length, required, s.cursor.mark⟩ }
  else some s

/-! ## Margins -/

/-- Begins a block collection at the column, unless one is there or the cursor stands inside brackets. Its first lexeme
is the one with the given number, or the next. -/
def indent (s : LexState) (column : Nat) (number : Option Nat) (l : Lexeme) : LexState :=
  if s.inFlow || Nat.blt column s.margin then s
  else
    let s := { s with margin := column + 1, outerMargins := s.margin :: s.outerMargins }
    match number with
    | some n => s.pushBefore n l
    | none => s.push l

/-- The block collections whose margin is beyond the limit: how many there are, and the margins that remain. -/
def outer (limit : Nat) : Nat → List Nat → Nat × Nat × List Nat
  | margin, [] => (0, margin, [])
  | margin, m :: ms =>
    if Nat.blt limit margin then
      let (n, margin', ms') := outer limit m ms
      (n + 1, margin', ms')
    else (0, margin, m :: ms)

/-- Ends the block collections whose margin is beyond the limit, unless the cursor stands inside brackets. -/
def outdent (s : LexState) (limit : Nat) : LexState :=
  if s.inFlow then s
  else
    let (n, margin, margins) := outer limit s.margin s.outerMargins
    { s with queue := s.queue ++ List.replicate n .blockEnd, margin := margin, outerMargins := margins }

/-! ## Lexemes by their indicators -/

/-- Moves the cursor, and puts a lexeme at the end of the queue. -/
def take (s : LexState) (n : Nat) (l : Lexeme) : LexState := { s with cursor := s.cursor.skip n }.push l

/-- Puts a lexeme at the end of the queue that has been read up to the cursor. -/
def takeTo (s : LexState) (l : Lexeme) (c : Cursor) : LexState := { s with cursor := c }.push l

/-- The end of the text, which also ends its last line. -/
def takeEnd (s : LexState) : Option LexState := do
  let m := s.cursor.mark
  let m := if m.column = 0 then m else { m with line := m.line + 1, column := 0 }
  let s ← ({ s with cursor := { s.cursor with mark := m } }.outdent 0).dropCandidate
  return { s with keyAllowed := false, ended := true }.push .streamEnd

/-- A directive. -/
def takeDirective (s : LexState) : Option LexState := do
  let s ← (s.outdent 0).dropCandidate
  let (l, c) ← readDirective (s.cursor.skip 1)
  return { s with keyAllowed := false }.takeTo l c

/-- A document marker. -/
def takeMarker (s : LexState) (l : Lexeme) : Option LexState := do
  let s ← (s.outdent 0).dropCandidate
  return { s with keyAllowed := false }.take 3 l

/-- An opening bracket or brace. -/
def takeOpening (s : LexState) (l : Lexeme) : Option LexState := do
  let s ← s.saveCandidate
  return { s with keyAllowed := true, candidate := none, outerCandidates := s.candidate :: s.outerCandidates }.take 1 l

/-- A closing bracket or brace. -/
def takeClosing (s : LexState) (l : Lexeme) : Option LexState := do
  let s ← s.dropCandidate
  let s := { s with
    candidate := s.outerCandidates.headD s.candidate
    outerCandidates := s.outerCandidates.tail
    keyAllowed := false }
  return s.take 1 l

/-- A comma. -/
def takeComma (s : LexState) : Option LexState := do
  let s ← s.dropCandidate
  return { s with keyAllowed := true }.take 1 .comma

/-- A hyphen before an item. -/
def takeDash (s : LexState) : Option LexState := do
  guard (s.inFlow || s.keyAllowed)
  let s ← (s.indent s.cursor.column none .blockSequence).dropCandidate
  return { s with keyAllowed := true }.take 1 .dash

/-- A question mark before a key. -/
def takeKey (s : LexState) : Option LexState := do
  guard (s.inFlow || s.keyAllowed)
  let s ← (s.indent s.cursor.column none .blockMapping).dropCandidate
  return { s with keyAllowed := !s.inFlow }.take 1 .key

/-- A colon before a value. If there is a candidate, it starts the key. -/
def takeValue (s : LexState) : Option LexState :=
  match s.candidate with
  | some k =>
    let s := (s.pushBefore k.number .key).indent k.mark.column (some k.number) .blockMapping
    some ({ s with candidate := none, keyAllowed := false }.take 1 .value)
  | none => do
    guard (s.inFlow || s.keyAllowed)
    let s := s.indent s.cursor.column none .blockMapping
    return { s with keyAllowed := !s.inFlow }.take 1 .value

/-- A lexeme with which a key may start, and after which none may. -/
def takeContent (s : LexState) (read : Cursor → Option (Lexeme × Cursor)) : Option LexState := do
  let s ← s.saveCandidate
  let (l, c) ← read s.cursor
  return { s with keyAllowed := false }.takeTo l c

/-- An anchor or alias. -/
def takeName (s : LexState) (l : String → Lexeme) : Option LexState :=
  s.takeContent fun c => (readName (c.skip 1)).map fun (name, c) => (l name, c)

/-- A quoted scalar. -/
def takeQuoted (s : LexState) (q : Quote) : Option LexState :=
  s.takeContent fun c => (readQuoted q (c.skip 1) [] .nothing).map fun (text, c) => (.scalar text false, c)

/-- A plain scalar. If it reaches into the next line, a key may start behind it. -/
def takePlain (s : LexState) : Option LexState := do
  let s ← s.saveCandidate
  let p ← readPlain s.inFlow s.margin s.cursor [] .nothing
  return { s with keyAllowed := p.broken }.takeTo (.scalar p.text true) p.after

/-- A block scalar. -/
def takeBlock (s : LexState) (isFolded : Bool) : Option LexState := do
  let s ← s.dropCandidate
  let (text, c) ← readBlock isFolded s.margin (s.cursor.skip 1)
  return { s with keyAllowed := true }.takeTo (.scalar text false) c

/-! ## The next lexeme -/

/-- Moves over blanks, comments and line breaks. Outside of brackets a key may start on a new line, and tabs may not
stand where a key may start. Also tells whether a key may start behind them. -/
def skipSpace (inFlow : Bool) (c : Cursor) (keyAllowed : Bool) : Cursor × Bool :=
  match _h : c.rest with
  | [] => (c, keyAllowed)
  | ch :: rest =>
    if ch = ' ' || ch = '\t' && (inFlow || !keyAllowed) || c.column = 0 && ch = byteOrderMark then
      skipSpace inFlow (c.skip 1) keyAllowed
    else if ch = '#' then skipSpace inFlow (c.skip ((rest.takeWhile (!isBreak ·)).length + 1)) keyAllowed
    else if _hb : isBreak ch then skipSpace inFlow c.skipBreak (keyAllowed || !inFlow)
    else (c, keyAllowed)
termination_by c.rest.length
decreasing_by
  · exact Cursor.length_skip_lt _h _
  · exact Cursor.length_skip_lt _h _
  · exact Cursor.length_skipBreak_lt _h _hb

/-- Reads the lexeme that starts at the cursor. -/
def takeNext (s : LexState) : Option LexState :=
  match s.cursor.rest with
  | [] => s.takeEnd
  | ch :: rest =>
    if s.cursor.column = 0 && ch = '%' then s.takeDirective
    else if s.cursor.column = 0 && startsWithMarker '-' (ch :: rest) then s.takeMarker .documentStart
    else if s.cursor.column = 0 && startsWithMarker '.' (ch :: rest) then s.takeMarker .documentEnd
    else if ch = '[' then s.takeOpening .openBracket
    else if ch = '{' then s.takeOpening .openBrace
    else if ch = ']' then s.takeClosing .closeBracket
    else if ch = '}' then s.takeClosing .closeBrace
    else if ch = ',' then s.takeComma
    else if ch = '-' && startsBlank rest then s.takeDash
    else if ch = '?' && (s.inFlow || startsBlank rest) then s.takeKey
    else if ch = ':' && (s.inFlow || startsBlank rest) then s.takeValue
    else if ch = '*' then s.takeName .alias
    else if ch = '&' then s.takeName .anchor
    else if ch = '!' then s.takeContent (readTag s.inFlow)
    else if ch = '|' && !s.inFlow then s.takeBlock false
    else if ch = '>' && !s.inFlow then s.takeBlock true
    else if ch = '\'' then s.takeQuoted .single
    else if ch = '"' then s.takeQuoted .double
    else if isBlank ch || "|>%@\x60".toList.contains ch then none
    else s.takePlain

/-- Reads on to the next lexeme. A line that is indented less ends block collections. -/
def fetch (s : LexState) : Option LexState := do
  let (c, keyAllowed) := skipSpace s.inFlow s.cursor s.keyAllowed
  let s ← { s with cursor := c, keyAllowed := keyAllowed }.refresh
  (s.outdent (s.cursor.column + 1)).takeNext

/-- The lexemes of the text, as many as the number of steps allows. A step reads a lexeme or releases one. -/
def release : Nat → LexState → List Lexeme
  | 0, _ => []
  | n + 1, s =>
    match s.queue with
    | [] =>
      if s.ended then []
      else
        match s.fetch with
        | none => []
        | some s => release n s
    | l :: queue =>
      match s.refresh with
      | none => []
      | some s =>
        if s.holdsHead then
          match s.fetch with
          | none => []
          | some s => release n s
        else l :: release n { s with queue := queue, released := s.released + 1 }

end LexState

/-- A bound for the steps that text takes: a lexeme is read for each character and for the end of the text at most, and
four are released for each that is read. -/
def stepBound (text : List Char) : Nat := 5 * (text.length + 2)

/-- The lexemes of the text up to where it stops making sense. If it makes sense throughout, the last lexeme is
`streamEnd`. Text with a character that no YAML text has does not make sense from the start. -/
def lexemes (text : List Char) : List Lexeme :=
  if text.all isReadable then (LexState.start text).release (stepBound text) else []

end Yaml
end Stencil
