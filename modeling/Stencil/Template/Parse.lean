import Stencil.Template.Basic

/-!
# Reading templates

Template text is read from left to right into tokens, up to the first defect if there is one (`Token.scan`). The byte
position of a defect is the byte length of the tokens before it. Tokens that stand for characters are then gathered
into the longest possible literals (`Segment.gather`).
-/

namespace Stencil

/-- A brace of either kind. -/
def isBrace (c : Char) : Bool := c == '{' || c == '}'

/-- Reads what follows the opening brace of a hole: the name, and the text after the closing brace. -/
def Token.readHole (cs : List Char) : Except Defect (String × List Char) :=
  match cs.dropWhile (!isBrace ·) with
  | [] => .error .unterminated
  | b :: rest =>
    if b = '{' then .error .nested
    else
      let name := cs.takeWhile (!isBrace ·)
      if name = [] then .error .nameless
      else if isName name then .ok (String.ofList name, rest)
      else .error (.badName (String.ofList name))

/-- A hole takes at least one character. -/
theorem Token.length_lt_of_readHole {cs rest : List Char} {name : String} (h : readHole cs = .ok (name, rest)) :
    rest.length < cs.length := by
  have hd : (cs.dropWhile (!isBrace ·)).length ≤ cs.length := (List.dropWhile_suffix _).length_le
  unfold readHole at h
  split at h
  · simp at h
  · next b r heq =>
    rw [heq, List.length_cons] at hd
    split at h
    · simp at h
    · simp only at h
      split at h
      · simp at h
      · split at h
        · simp only [Except.ok.injEq, Prod.mk.injEq] at h
          obtain ⟨_, rfl⟩ := h
          omega
        · simp at h

/-- The tokens of the text up to its first defect, and that defect if there is one. -/
def Token.scan (cs : List Char) : List Token × Option Defect :=
  match cs with
  | [] => ([], none)
  | '{' :: '{' :: rest => let (ts, d) := scan rest; (.openBrace :: ts, d)
  | '{' :: rest =>
    match _h : readHole rest with
    | .error d => ([], some d)
    | .ok (name, after) => let (ts, d) := scan after; (.hole name :: ts, d)
  | '}' :: '}' :: rest => let (ts, d) := scan rest; (.closeBrace :: ts, d)
  | '}' :: _ => ([], some .unmatched)
  | c :: rest => let (ts, d) := scan rest; (.plain c :: ts, d)
termination_by cs.length
decreasing_by
  all_goals try (simp only [List.length_cons]; omega)
  have := length_lt_of_readHole _h
  simp only [List.length_cons]; omega

/-- The text up to the defect, in bytes. -/
def Token.bytes (ts : List Token) : Nat := byteLength (ts.flatMap Token.spelling)

/-- Puts literal text before segments; no text makes no segment. -/
def Segment.consLiteral (text : List Char) (segments : List Segment) : List Segment :=
  if text = [] then segments else .literal (String.ofList text) :: segments

/-- The characters that the tokens begin with, and the segments that the tokens from the first hole on make. -/
def Segment.split : List Token → List Char × List Segment
  | [] => ([], [])
  | .plain c :: ts => let (text, segments) := split ts; (c :: text, segments)
  | .openBrace :: ts => let (text, segments) := split ts; ('{' :: text, segments)
  | .closeBrace :: ts => let (text, segments) := split ts; ('}' :: text, segments)
  | .hole name :: ts => let (text, segments) := split ts; ([], .hole name :: consLiteral text segments)

/-- Tokens as segments, each literal as long as possible. -/
def Segment.gather (ts : List Token) : List Segment := let (text, segments) := split ts; consLiteral text segments

/-- Reads template text. -/
def Template.parse (source : String) : Except Malformed Template :=
  match Token.scan source.toList with
  | (ts, none) => .ok ⟨source, Segment.gather ts⟩
  | (ts, some defect) => .error ⟨source, Token.bytes ts, defect⟩

/-- The token that stands for a character. -/
def Token.ofChar (c : Char) : Token := if c = '{' then .openBrace else if c = '}' then .closeBrace else .plain c

/-- The tokens that a segment is written with. -/
def Segment.tokens : Segment → List Token
  | .literal text => text.toList.map Token.ofChar
  | .hole name => [.hole name]

/-- The template that is written with the tokens. -/
def Template.ofTokens (ts : List Token) : Template := ⟨String.ofList (ts.flatMap Token.spelling), Segment.gather ts⟩

/-- The template that consists of the segments. -/
def Template.ofSegments (segments : List Segment) : Template := ofTokens (segments.flatMap Segment.tokens)

end Stencil
