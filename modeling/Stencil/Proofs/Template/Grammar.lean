import Stencil.Template.Parse
import Mathlib.Data.List.TakeWhile
import Mathlib.Logic.ExistsUnique

/-!
# The grammar of templates

Template text is a sequence of well-formed tokens (`IsTemplate`); text that is none breaks off at a defect, and what is
wrong there is read off the text that follows (`Defective`).

- **Tokens are a prefix code** (`scan_spelling_append`): scanning spelled tokens gives these tokens back, whatever
  follows them.
- **Text decomposes** (`exists_tokens`): into tokens and then the end of the text or a defect.
- **`parse_decides_grammar`**: reading a template accepts exactly the grammar, and refuses other text at the one byte
  where its defect starts.
-/

namespace Stencil

/-! ## The language -/

/-- A letter or an underscore, ASCII only. -/
def IsIdentifierStart (c : Char) : Prop := ('A' ≤ c ∧ c ≤ 'Z') ∨ ('a' ≤ c ∧ c ≤ 'z') ∨ c = '_'

/-- What can stand between the braces of a hole: `[A-Za-z_][A-Za-z0-9_]*`. -/
def IsIdentifier : List Char → Prop
  | [] => False
  | c :: cs => IsIdentifierStart c ∧ ∀ d ∈ cs, IsIdentifierStart d ∨ ('0' ≤ d ∧ d ≤ '9')

/-- No brace of either kind. -/
def Braceless (cs : List Char) : Prop := ∀ c ∈ cs, c ≠ '{' ∧ c ≠ '}'

/-- A token that template text can consist of. -/
def Token.WellFormed : Token → Prop
  | .plain c => c ≠ '{' ∧ c ≠ '}'
  | .openBrace | .closeBrace => True
  | .hole name => IsIdentifier name.toList

/-- Sequences of tokens. -/
def IsTemplate (cs : List Char) : Prop := ∃ ts : List Token, (∀ t ∈ ts, t.WellFormed) ∧ cs = ts.flatMap Token.spelling

/-- Text that starts with a defect, and the defect in words. -/
inductive Defective : List Char → String → Prop
  | unmatched {rest : List Char} (h : rest.head? ≠ some '}') : Defective ('}' :: rest) "unmatched '\x7d'"
  | unterminated {text : List Char} (h : Braceless text) : Defective ('{' :: text) "unterminated placeholder"
  | nested {text rest : List Char} (h : Braceless text) (hne : text ≠ []) :
      Defective ('{' :: (text ++ '{' :: rest)) "nested '\x7b' inside placeholder"
  | nameless {rest : List Char} : Defective ('{' :: '}' :: rest) "empty placeholder"
  | badName {text rest : List Char} (h : Braceless text) (hne : text ≠ []) (hid : ¬ IsIdentifier text) :
      Defective ('{' :: (text ++ '}' :: rest)) ("invalid placeholder name '" ++ String.ofList text ++ "'")

/-! ## Names -/

theorem isNameStart_iff (c : Char) : isNameStart c = true ↔ IsIdentifierStart c := by
  have hupper : c.isUpper = true ↔ 'A' ≤ c ∧ c ≤ 'Z' := decide_eq_true_iff
  have hlower : c.isLower = true ↔ 'a' ≤ c ∧ c ≤ 'z' := by
    show (decide ('a' ≤ c) && decide (c ≤ 'z')) = true ↔ _
    rw [Bool.and_eq_true, decide_eq_true_iff, decide_eq_true_iff]
  have halpha : c.isAlpha = (c.isUpper || c.isLower) := rfl
  rw [isNameStart, IsIdentifierStart, halpha, Bool.or_eq_true, Bool.or_eq_true, hupper, hlower, beq_iff_eq, or_assoc]

theorem isNameChar_iff (c : Char) : isNameChar c = true ↔ IsIdentifierStart c ∨ ('0' ≤ c ∧ c ≤ '9') := by
  rw [← isNameStart_iff]
  simp only [isNameChar, isNameStart, Char.isAlphanum, Char.isDigit, Char.le_def, Bool.or_eq_true, Bool.and_eq_true,
    decide_eq_true_eq, ge_iff_le]
  rw [or_right_comm]

/-- The test on names decides what an identifier is. -/
theorem isName_iff : ∀ cs : List Char, isName cs = true ↔ IsIdentifier cs
  | [] => by simp [isName, IsIdentifier]
  | c :: cs => by simp [isName, IsIdentifier, isNameStart_iff, isNameChar_iff]

theorem not_isBrace_iff (c : Char) : (!isBrace c) = true ↔ c ≠ '{' ∧ c ≠ '}' := by simp [isBrace]

theorem braceless_of_isIdentifier {cs : List Char} (h : IsIdentifier cs) : Braceless cs := by
  cases cs with
  | nil => exact h.elim
  | cons c cs =>
    have hstart : ∀ d, IsIdentifierStart d ∨ ('0' ≤ d ∧ d ≤ '9') → d ≠ '{' ∧ d ≠ '}' := by
      rintro d hd
      constructor <;> rintro rfl <;> revert hd <;> unfold IsIdentifierStart <;> decide
    intro d hd
    rcases List.mem_cons.mp hd with rfl | hd
    · exact hstart d (.inl h.1)
    · exact hstart d (h.2 d hd)

theorem ne_nil_of_isIdentifier {cs : List Char} (h : IsIdentifier cs) : cs ≠ [] := by
  rintro rfl
  exact h

/-! ## Scanning one token -/

namespace Token

/-- The text of a hole reaches up to the next brace. -/
theorem span_braceless {text rest : List Char} {b : Char} (h : Braceless text) (hb : b = '{' ∨ b = '}') :
    (text ++ b :: rest).takeWhile (!isBrace ·) = text ∧ (text ++ b :: rest).dropWhile (!isBrace ·) = b :: rest := by
  have htext : ∀ c ∈ text, (!isBrace c) = true := fun c hc => (not_isBrace_iff c).mpr (h c hc)
  have hbrace : (!isBrace b) = false := by rcases hb with rfl | rfl <;> rfl
  rw [List.takeWhile_append_of_pos htext, List.dropWhile_append_of_pos htext]
  simp [hbrace]

theorem readHole_braceless {text : List Char} (h : Braceless text) : readHole text = .error .unterminated := by
  have hd : text.dropWhile (!isBrace ·) = [] :=
    List.dropWhile_eq_nil_iff.mpr fun c hc => (not_isBrace_iff c).mpr (h c hc)
  rw [readHole, hd]

theorem readHole_open {text rest : List Char} (h : Braceless text) :
    readHole (text ++ '{' :: rest) = .error .nested := by
  rw [readHole, (span_braceless h (.inl rfl)).2]
  rfl

theorem readHole_close {text rest : List Char} (h : Braceless text) :
    readHole (text ++ '}' :: rest) =
      if text = [] then .error .nameless
      else if isName text then .ok (String.ofList text, rest) else .error (.badName (String.ofList text)) := by
  rw [readHole, (span_braceless h (.inr rfl)).1, (span_braceless h (.inr rfl)).2]
  rfl

theorem scan_nil : scan [] = ([], none) := by rw [scan]

theorem scan_unmatched {rest : List Char} (h : rest.head? ≠ some '}') : scan ('}' :: rest) = ([], some .unmatched) := by
  cases rest with
  | nil => simp [scan]
  | cons c cs =>
    have hc : c ≠ '}' := fun e => h (by rw [e, List.head?_cons])
    rw [scan]
    intro r e
    exact hc (List.cons.inj e).1

/-- An opening brace that is not doubled is followed by a hole or by a defect. -/
theorem scan_open {rest : List Char} (h : rest.head? ≠ some '{') :
    scan ('{' :: rest) =
      match readHole rest with
      | .error d => ([], some d)
      | .ok (name, after) => (.hole name :: (scan after).1, (scan after).2) := by
  rw [scan]
  · split <;> simp_all
  · rintro r rfl
    exact h rfl

/-- Text without braces hides no doubled brace at its start. -/
theorem head?_of_braceless {text rest : List Char} (h : Braceless text) (hne : text ≠ []) :
    (text ++ rest).head? ≠ some '{' := by
  obtain ⟨c, cs, rfl⟩ := List.exists_cons_of_ne_nil hne
  intro hc
  exact (h c List.mem_cons_self).1 (Option.some.inj hc)

/-- A token is scanned whole, whatever follows it. -/
theorem scan_spelling {t : Token} (h : t.WellFormed) (rest : List Char) :
    scan (t.spelling ++ rest) = (t :: (scan rest).1, (scan rest).2) := by
  cases t with
  | plain c =>
    rw [spelling, List.cons_append, List.nil_append, scan]
    · exact fun r hr => absurd hr h.1
    · exact h.1
    · exact fun r hr => absurd hr h.2
    · exact h.2
  | openBrace => simp [spelling, scan]
  | closeBrace => simp [spelling, scan]
  | hole name =>
    have hb := braceless_of_isIdentifier h
    have hne := ne_nil_of_isIdentifier h
    have hread : readHole (name.toList ++ '}' :: rest) = .ok (name, rest) := by
      rw [readHole_close hb, if_neg hne, if_pos ((isName_iff _).mpr h), String.ofList_toList]
    have hspell : (hole name).spelling ++ rest = '{' :: (name.toList ++ '}' :: rest) := by simp [spelling]
    rw [hspell, scan_open (head?_of_braceless hb hne), hread]

/-- Well-formed tokens are a prefix code: what they spell is scanned back into them, whatever follows. -/
theorem scan_spelling_append {ts : List Token} (h : ∀ t ∈ ts, t.WellFormed) (rest : List Char) :
    scan (ts.flatMap spelling ++ rest) = (ts ++ (scan rest).1, (scan rest).2) := by
  induction ts with
  | nil => simp
  | cons t ts ih =>
    rw [List.flatMap_cons, List.append_assoc, scan_spelling (h t List.mem_cons_self),
      ih fun u hu => h u (List.mem_cons_of_mem t hu)]
    simp

/-- Scanning stops before a defect and says what it is. -/
theorem scan_defective {cs : List Char} {reason : String} (h : Defective cs reason) :
    ∃ d : Defect, scan cs = ([], some d) ∧ d.reason = reason := by
  cases h with
  | unmatched h => exact ⟨.unmatched, scan_unmatched h, rfl⟩
  | @unterminated text h =>
    have hhead : text.head? ≠ some '{' := fun hc => (h _ (List.mem_of_mem_head? hc)).1 rfl
    exact ⟨.unterminated, by rw [scan_open hhead, readHole_braceless h], rfl⟩
  | nested h hne => exact ⟨.nested, by rw [scan_open (head?_of_braceless h hne), readHole_open h], rfl⟩
  | @nameless rest =>
    have hb : Braceless [] := fun _ hc => absurd hc List.not_mem_nil
    exact ⟨.nameless, by rw [scan_open (by simp), ← List.nil_append ('}' :: rest), readHole_close hb, if_pos rfl], rfl⟩
  | @badName text rest h hne hid =>
    refine ⟨.badName (String.ofList text), ?_, rfl⟩
    have hname : ¬ isName text = true := fun e => hid ((isName_iff text).mp e)
    rw [scan_open (head?_of_braceless h hne), readHole_close h, if_neg hne, if_neg hname]

end Token

/-! ## Every text decomposes -/

theorem braceless_cons {c : Char} {cs : List Char} (h₁ : c ≠ '{') (h₂ : c ≠ '}') (h : Braceless cs) :
    Braceless (c :: cs) := by
  intro d hd
  rcases List.mem_cons.mp hd with rfl | hd
  · exact ⟨h₁, h₂⟩
  · exact h d hd

/-- Text is without braces, or is so up to its first brace. -/
theorem exists_first_brace : ∀ cs : List Char,
    Braceless cs ∨ ∃ text b rest, Braceless text ∧ (b = '{' ∨ b = '}') ∧ cs = text ++ b :: rest
  | [] => .inl fun _ hc => absurd hc List.not_mem_nil
  | c :: cs => by
    have hnil : Braceless [] := fun _ hc => absurd hc List.not_mem_nil
    by_cases h₁ : c = '{'
    · exact .inr ⟨[], c, cs, hnil, .inl h₁, rfl⟩
    by_cases h₂ : c = '}'
    · exact .inr ⟨[], c, cs, hnil, .inr h₂, rfl⟩
    rcases exists_first_brace cs with h | ⟨text, b, rest, h, hb, rfl⟩
    · exact .inl (braceless_cons h₁ h₂ h)
    · exact .inr ⟨c :: text, b, rest, braceless_cons h₁ h₂ h, hb, rfl⟩

/-- An opening brace that is not doubled starts a hole or a defect. -/
theorem hole_or_defective {rest : List Char} (h : rest.head? ≠ some '{') :
    (∃ (t : Token) (after : List Char), t.WellFormed ∧ '{' :: rest = t.spelling ++ after) ∨
      ∃ reason, Defective ('{' :: rest) reason := by
  rcases exists_first_brace rest with hb | ⟨text, b, after, hb, rfl | rfl, rfl⟩
  · exact .inr ⟨_, .unterminated hb⟩
  · have hne : text ≠ [] := by rintro rfl; exact h rfl
    exact .inr ⟨_, .nested hb hne⟩
  · by_cases hne : text = []
    · subst hne
      exact .inr ⟨_, .nameless⟩
    by_cases hid : IsIdentifier text
    · refine .inl ⟨.hole (String.ofList text), after, ?_, by simp [Token.spelling]⟩
      rw [Token.WellFormed, String.toList_ofList]
      exact hid
    · exact .inr ⟨_, .badName hb hne hid⟩

/-- What text can start with: nothing, a token, or a defect. -/
theorem nil_or_token_or_defective (cs : List Char) :
    cs = [] ∨ (∃ (t : Token) (rest : List Char), t.WellFormed ∧ cs = t.spelling ++ rest) ∨
      ∃ reason, Defective cs reason := by
  cases cs with
  | nil => exact .inl rfl
  | cons c rest =>
    refine .inr ?_
    by_cases h₁ : c = '{'
    · subst h₁
      by_cases hd : rest.head? = some '{'
      · obtain ⟨after, rfl⟩ := List.head?_eq_some_iff.mp hd
        exact .inl ⟨.openBrace, after, trivial, rfl⟩
      · exact hole_or_defective hd
    by_cases h₂ : c = '}'
    · subst h₂
      by_cases hd : rest.head? = some '}'
      · obtain ⟨after, rfl⟩ := List.head?_eq_some_iff.mp hd
        exact .inl ⟨.closeBrace, after, trivial, rfl⟩
      · exact .inr ⟨_, .unmatched hd⟩
    · exact .inl ⟨.plain c, rest, ⟨h₁, h₂⟩, rfl⟩

theorem Token.spelling_ne_nil (t : Token) : t.spelling ≠ [] := by cases t <;> simp [Token.spelling]

/-- Every text is tokens up to its end or up to a defect. -/
theorem exists_tokens (cs : List Char) :
    ∃ (ts : List Token) (rest : List Char), (∀ t ∈ ts, t.WellFormed) ∧ cs = ts.flatMap Token.spelling ++ rest ∧
      (rest = [] ∨ ∃ reason, Defective rest reason) := by
  rcases nil_or_token_or_defective cs with rfl | ⟨t, after, ht, hcs⟩ | h
  · exact ⟨[], [], by simp, rfl, .inl rfl⟩
  · have hlt : after.length < cs.length := by
      have := List.length_pos_iff.mpr t.spelling_ne_nil
      rw [hcs, List.length_append]
      omega
    obtain ⟨ts, rest, hts, hafter, hrest⟩ := exists_tokens after
    refine ⟨t :: ts, rest, ?_, by rw [hcs, hafter, List.flatMap_cons, List.append_assoc], hrest⟩
    intro u hu
    rcases List.mem_cons.mp hu with rfl | hu
    · exact ht
    · exact hts u hu
  · exact ⟨[], cs, by simp, rfl, .inr h⟩
termination_by cs.length

/-! ## The first defect -/

/-- A defect starts at the byte of the text, and everything before it is template text. -/
def DefectAt (s : String) (position : Nat) (reason : String) : Prop :=
  ∃ before after : String, s = before ++ after ∧ before.utf8ByteSize = position ∧ IsTemplate before.toList ∧
    Defective after.toList reason

theorem byteLength_eq : ∀ cs : List Char, byteLength cs = (String.ofList cs).utf8ByteSize
  | [] => rfl
  | c :: cs => by rw [byteLength, byteLength_eq cs, String.ofList_cons, String.utf8ByteSize_append]; simp

/-- Reading stops at a defect that template text leads up to. -/
theorem parse_of_defectAt {s : String} {position : Nat} {reason : String} (h : DefectAt s position reason) :
    ∃ d : Defect, Template.parse s = .error ⟨s, position, d⟩ ∧ d.reason = reason := by
  obtain ⟨before, after, rfl, rfl, ⟨ts, hts, hbefore⟩, hafter⟩ := h
  obtain ⟨d, hd, rfl⟩ := Token.scan_defective hafter
  refine ⟨d, ?_, rfl⟩
  have hscan : Token.scan (before ++ after).toList = (ts, some d) := by
    rw [String.toList_append, hbefore, Token.scan_spelling_append hts, hd, List.append_nil]
  have hbytes : Token.bytes ts = before.utf8ByteSize := by
    rw [Token.bytes, byteLength_eq, ← hbefore, String.ofList_toList]
  rw [Template.parse, hscan, ← hbytes]

/-- Template text is read. -/
theorem parse_of_isTemplate {s : String} (h : IsTemplate s.toList) : ∃ t, Template.parse s = .ok t := by
  obtain ⟨ts, hts, hs⟩ := h
  have hscan : Token.scan s.toList = (ts, none) := by
    rw [hs, ← List.append_nil (ts.flatMap Token.spelling), Token.scan_spelling_append hts, Token.scan_nil,
      List.append_nil]
  exact ⟨_, by rw [Template.parse, hscan]⟩

/-- Text is template text, or has a defect with template text before it. -/
theorem isTemplate_or_defectAt (s : String) : IsTemplate s.toList ∨ ∃ position reason, DefectAt s position reason := by
  obtain ⟨ts, rest, hts, hs, rfl | ⟨reason, hrest⟩⟩ := exists_tokens s.toList
  · exact .inl ⟨ts, hts, by rw [hs, List.append_nil]⟩
  · refine .inr ⟨_, reason, String.ofList (ts.flatMap Token.spelling), String.ofList rest, ?_, rfl, ?_, ?_⟩
    · rw [← String.ofList_append, ← hs, String.ofList_toList]
    · exact ⟨ts, hts, by rw [String.toList_ofList]⟩
    · rwa [String.toList_ofList]

/-- **Reading decides the grammar.** A text is read exactly when it is template text. Otherwise there is exactly one
byte at which a defect starts behind template text, and reading refuses the whole text there, for the reason that the
text from that byte on gives. -/
theorem parse_decides_grammar (s : String) :
    ((∃ t, Template.parse s = .ok t) ↔ IsTemplate s.toList) ∧
    (¬ IsTemplate s.toList → ∃! position, ∃ reason, DefectAt s position reason) ∧
    ∀ position reason, DefectAt s position reason ↔
      ∃ m, Template.parse s = .error m ∧ m.template = s ∧ m.position = position ∧ m.defect.reason = reason := by
  have hdefect : ∀ {m}, Template.parse s = .error m →
      m.template = s ∧ DefectAt s m.position m.defect.reason := by
    intro m hm
    rcases isTemplate_or_defectAt s with ht | ⟨position, reason, hd⟩
    · obtain ⟨t, ht⟩ := parse_of_isTemplate ht
      rw [hm] at ht
      cases ht
    · obtain ⟨d, hparse, rfl⟩ := parse_of_defectAt hd
      rw [hm] at hparse
      cases hparse
      exact ⟨rfl, hd⟩
  refine ⟨⟨?_, parse_of_isTemplate⟩, ?_, ?_⟩
  · rintro ⟨t, ht⟩
    rcases isTemplate_or_defectAt s with h | ⟨position, reason, hd⟩
    · exact h
    · obtain ⟨d, hparse, _⟩ := parse_of_defectAt hd
      rw [ht] at hparse
      cases hparse
  · intro hnot
    obtain ⟨position, reason, hd⟩ := (isTemplate_or_defectAt s).resolve_left hnot
    refine ⟨position, ⟨reason, hd⟩, ?_⟩
    rintro position' ⟨reason', hd'⟩
    obtain ⟨d, hparse, _⟩ := parse_of_defectAt hd
    obtain ⟨d', hparse', _⟩ := parse_of_defectAt hd'
    rw [hparse] at hparse'
    cases hparse'
    rfl
  · intro position reason
    constructor
    · intro hd
      obtain ⟨d, hparse, rfl⟩ := parse_of_defectAt hd
      exact ⟨_, hparse, rfl, rfl, rfl⟩
    · rintro ⟨m, hm, -, rfl, rfl⟩
      exact (hdefect hm).2

end Stencil
