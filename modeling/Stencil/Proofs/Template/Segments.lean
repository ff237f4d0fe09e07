import Mathlib.Data.List.Chain
import Mathlib.Data.Set.Function
import Stencil.Proofs.Template.Grammar

/-!
# Segments and the text they are written with

Segments are written down with the braces of their literals doubled (`Segment.unparse`). A list of segments is normal if
its literals are as long as possible and its names are proper (`Segment.Normal`).

- **`parse_eq_ok_iff`**: a template is read from the tokens that its text consists of.
- **`tokens_gather`**: gathering tokens into segments loses none of them.
- **`gather_tokens`**: normal segments are what their tokens are gathered into.
- **`parse_inverse_unparse`**: reading and writing down are inverse, so template text and normal segments correspond.
-/

namespace Stencil

/-! ## The tokens of a text -/

/-- The text consists of the tokens. -/
def Spells (ts : List Token) (cs : List Char) : Prop := (∀ t ∈ ts, t.WellFormed) ∧ cs = ts.flatMap Token.spelling

variable {ts us : List Token} {cs : List Char} {s : String}

theorem Spells.scan_eq (h : Spells ts cs) : Token.scan cs = (ts, none) := by
  rw [h.2, ← List.append_nil (ts.flatMap Token.spelling), Token.scan_spelling_append h.1, Token.scan_nil,
    List.append_nil]

/-- A text consists of tokens in one way at most. -/
theorem Spells.unique (h : Spells ts cs) (h' : Spells us cs) : ts = us :=
  congrArg Prod.fst (h.scan_eq.symm.trans h'.scan_eq)

theorem parse_of_spells (h : Spells ts s.toList) : Template.parse s = .ok ⟨s, Segment.gather ts⟩ := by
  rw [Template.parse, h.scan_eq]

/-- **What is read.** A template is read from a text that consists of tokens, and holds these tokens as segments. -/
theorem parse_eq_ok_iff {t : Template} :
    Template.parse s = .ok t ↔ ∃ ts, Spells ts s.toList ∧ t = ⟨s, Segment.gather ts⟩ := by
  constructor
  · intro h
    rcases isTemplate_or_defectAt s with ⟨ts, hts, hs⟩ | ⟨position, reason, hd⟩
    · have hspells : Spells ts s.toList := ⟨hts, hs⟩
      exact ⟨ts, hspells, Except.ok.inj (h.symm.trans (parse_of_spells hspells))⟩
    · obtain ⟨d, hparse, -⟩ := parse_of_defectAt hd
      rw [h] at hparse
      cases hparse
  · rintro ⟨ts, hspells, rfl⟩
    exact parse_of_spells hspells

/-! ## Segments written down -/

namespace Segment

/-- The segment is text to copy. -/
def IsLiteral : Segment → Prop
  | .literal _ => True
  | .hole _ => False

/-- The characters that a segment is written with: a brace of a literal twice, every other character once, a name
between braces. -/
def spelling : Segment → List Char
  | .literal text => text.toList.flatMap fun c => if c = '{' ∨ c = '}' then [c, c] else [c]
  | .hole name => '{' :: name.toList ++ ['}']

/-- The text that segments are written with. -/
def unparse (segments : List Segment) : String := String.ofList (segments.flatMap spelling)

/-- Segments of which no literal is empty or next to another, and of which the names are proper. -/
structure Normal (segments : List Segment) : Prop where
  literal_ne : ∀ text, .literal text ∈ segments → text ≠ ""
  apart : segments.IsChain fun s t => ¬ (s.IsLiteral ∧ t.IsLiteral)
  names : ∀ name, .hole name ∈ segments → IsIdentifier name.toList

variable {segments : List Segment} {segment : Segment}

theorem Normal.tail (h : Normal (segment :: segments)) : Normal segments where
  literal_ne text ht := h.literal_ne text (List.mem_cons_of_mem _ ht)
  apart := h.apart.tail
  names name hn := h.names name (List.mem_cons_of_mem _ hn)

theorem normal_nil : Normal [] where
  literal_ne _ h := absurd h List.not_mem_nil
  apart := .nil
  names _ h := absurd h List.not_mem_nil

theorem normal_hole {name : String} (hname : IsIdentifier name.toList) (h : Normal segments) :
    Normal (.hole name :: segments) where
  literal_ne text ht := by
    rcases List.mem_cons.mp ht with e | ht
    · cases e
    · exact h.literal_ne text ht
  apart := List.isChain_cons.mpr ⟨fun _ _ hlit => hlit.1, h.apart⟩
  names n hn := by
    rcases List.mem_cons.mp hn with e | hn
    · cases e
      exact hname
    · exact h.names n hn

/-- Literal text can come before segments that do not start with a literal. -/
theorem normal_consLiteral {text : List Char} (hhead : ∀ t ∈ segments.head?, ¬ t.IsLiteral) (h : Normal segments) :
    Normal (consLiteral text segments) := by
  unfold consLiteral
  split
  · exact h
  · next hne =>
    constructor
    · intro u hu
      rcases List.mem_cons.mp hu with e | hu
      · cases e
        rwa [Ne, String.ofList_eq_empty_iff]
      · exact h.literal_ne u hu
    · exact List.isChain_cons.mpr ⟨fun t ht hlit => hhead t ht hlit.2, h.apart⟩
    · intro n hn
      rcases List.mem_cons.mp hn with e | hn
      · cases e
      · exact h.names n hn

/-! ## Gathering tokens -/

theorem tokens_consLiteral (text : List Char) (segments : List Segment) :
    (consLiteral text segments).flatMap tokens = text.map Token.ofChar ++ segments.flatMap tokens := by
  unfold consLiteral
  split
  · next h => rw [h, List.map_nil, List.nil_append]
  · rw [List.flatMap_cons, tokens, String.toList_ofList]

theorem ofChar_plain {c : Char} (h : c ≠ '{' ∧ c ≠ '}') : Token.ofChar c = .plain c := by
  rw [Token.ofChar, if_neg h.1, if_neg h.2]

/-- The leading text and the segments behind it keep all the tokens. -/
theorem tokens_split (h : ∀ t ∈ ts, t.WellFormed) :
    (split ts).1.map Token.ofChar ++ (split ts).2.flatMap tokens = ts := by
  induction ts with
  | nil => rfl
  | cons t ts ih =>
    have ih := ih fun u hu => h u (List.mem_cons_of_mem t hu)
    cases t with
    | plain c =>
      have hc := ofChar_plain (h _ List.mem_cons_self)
      rw [split, List.map_cons, hc, List.cons_append, ih]
    | openBrace => rw [split, List.map_cons, List.cons_append, ih]; rfl
    | closeBrace => rw [split, List.map_cons, List.cons_append, ih]; rfl
    | hole name =>
      rw [split, List.map_nil, List.nil_append, List.flatMap_cons, tokens_consLiteral, ih]
      rfl

/-- **Nothing is lost** when tokens are gathered. -/
theorem tokens_gather (h : ∀ t ∈ ts, t.WellFormed) : (gather ts).flatMap tokens = ts := by
  rw [gather, tokens_consLiteral, tokens_split h]

theorem gather_hole (name : String) (ts : List Token) : gather (.hole name :: ts) = .hole name :: gather ts := rfl

/-- What tokens are gathered into is normal; behind the leading text it does not start with a literal. -/
theorem normal_split (h : ∀ t ∈ ts, t.WellFormed) :
    (∀ t ∈ (split ts).2.head?, ¬ t.IsLiteral) ∧ Normal (split ts).2 := by
  induction ts with
  | nil =>
    refine ⟨fun t ht => ?_, normal_nil⟩
    cases ht
  | cons t ts ih =>
    have ih := ih fun u hu => h u (List.mem_cons_of_mem t hu)
    cases t with
    | plain c => exact ih
    | openBrace => exact ih
    | closeBrace => exact ih
    | hole name =>
      refine ⟨fun t ht => ?_, normal_hole (h _ List.mem_cons_self) (normal_consLiteral ih.1 ih.2)⟩
      cases ht
      exact id

theorem normal_gather (h : ∀ t ∈ ts, t.WellFormed) : Normal (gather ts) :=
  normal_consLiteral (normal_split h).1 (normal_split h).2

theorem split_literal (text : List Char) (ts : List Token) :
    split (text.map Token.ofChar ++ ts) = (text ++ (split ts).1, (split ts).2) := by
  induction text with
  | nil => rfl
  | cons c text ih =>
    rw [List.map_cons, List.cons_append, Token.ofChar]
    split
    · next h => rw [split, ih, h]; rfl
    · split
      · next h => rw [split, ih, h]; rfl
      · rw [split, ih]; rfl

theorem gather_literal {text : String} (htext : text ≠ "") (hts : (split ts).1 = []) :
    gather (text.toList.map Token.ofChar ++ ts) = .literal text :: gather ts := by
  have hne : text.toList ≠ [] := fun e => htext (String.toList_eq_nil_iff.mp e)
  simp [gather, split_literal, hts, consLiteral, hne]

/-- **Normal segments** are what their tokens are gathered into. -/
theorem gather_tokens : ∀ {segments : List Segment}, Normal segments → gather (segments.flatMap tokens) = segments
  | [], _ => rfl
  | .hole name :: rest, h => by
    rw [List.flatMap_cons, tokens, List.singleton_append, gather_hole, gather_tokens h.tail]
  | [.literal text], h => by
    rw [List.flatMap_cons, tokens, List.flatMap_nil, gather_literal (h.literal_ne text List.mem_cons_self) rfl]
    rfl
  | .literal text :: .hole name :: rest, h => by
    have ih := gather_tokens h.tail
    rw [List.flatMap_cons, tokens, gather_literal (h.literal_ne text List.mem_cons_self) rfl, ih]
  | .literal text :: .literal more :: rest, h => by
    exact absurd ⟨trivial, trivial⟩ (List.isChain_cons_cons.mp h.apart).1

/-! ## Writing tokens -/

theorem wellFormed_ofChar (c : Char) : (Token.ofChar c).WellFormed := by
  unfold Token.ofChar
  split
  · trivial
  · split
    · trivial
    · next h₁ h₂ => exact ⟨h₁, h₂⟩

theorem wellFormed_literal (text : String) : ∀ t ∈ (literal text).tokens, t.WellFormed := by
  intro t ht
  obtain ⟨c, -, rfl⟩ := List.mem_map.mp ht
  exact wellFormed_ofChar c

theorem wellFormed_tokens (h : ∀ name, .hole name ∈ segments → IsIdentifier name.toList) :
    ∀ t ∈ segments.flatMap tokens, t.WellFormed := by
  intro t ht
  obtain ⟨segment, hs, ht⟩ := List.mem_flatMap.mp ht
  cases segment with
  | literal text => exact wellFormed_literal text t ht
  | hole name =>
    rw [List.mem_singleton.mp ht]
    exact h name hs

theorem spelling_ofChar (c : Char) : (Token.ofChar c).spelling = if c = '{' ∨ c = '}' then [c, c] else [c] := by
  unfold Token.ofChar
  by_cases h₁ : c = '{'
  · simp [h₁, Token.spelling]
  by_cases h₂ : c = '}'
  · simp [h₂, Token.spelling]
  · simp [h₁, h₂, Token.spelling]

/-- A segment is written with its tokens. -/
theorem spelling_eq (segment : Segment) : segment.spelling = segment.tokens.flatMap Token.spelling := by
  cases segment with
  | literal text => simp only [spelling, tokens, List.flatMap_map, spelling_ofChar]
  | hole name => simp [spelling, tokens, Token.spelling]

theorem toList_unparse (segments : List Segment) :
    (unparse segments).toList = (segments.flatMap tokens).flatMap Token.spelling := by
  rw [unparse, String.toList_ofList, List.flatMap_assoc]
  exact congrArg segments.flatMap (funext spelling_eq)

theorem unparse_gather (h : Spells ts s.toList) : unparse (gather ts) = s := by
  rw [← String.toList_inj, toList_unparse, tokens_gather h.1, h.2]

theorem parse_unparse (h : Normal segments) : Template.parse (unparse segments) = .ok ⟨unparse segments, segments⟩ := by
  have hspells : Spells (segments.flatMap tokens) (unparse segments).toList :=
    ⟨wellFormed_tokens h.names, toList_unparse segments⟩
  rw [parse_of_spells hspells, gather_tokens h]

/-- **Reading and writing down are inverse.** A template that is read has the text as its source and normal segments,
which are written with this text. Normal segments are read from the text that they are written with. So normal segments
and template text correspond one to one. -/
theorem parse_inverse_unparse :
    (∀ s t, Template.parse s = .ok t → t.source = s ∧ Normal t.segments ∧ unparse t.segments = s) ∧
    (∀ segments, Normal segments → Template.parse (unparse segments) = .ok ⟨unparse segments, segments⟩) ∧
    Set.BijOn unparse {segments | Normal segments} {s | ∃ t, Template.parse s = .ok t} := by
  have hread : ∀ s t, Template.parse s = .ok t → t.source = s ∧ Normal t.segments ∧ unparse t.segments = s := by
    intro s t h
    obtain ⟨ts, hspells, rfl⟩ := parse_eq_ok_iff.mp h
    exact ⟨rfl, normal_gather hspells.1, unparse_gather hspells⟩
  refine ⟨hread, fun _ h => parse_unparse h, fun _ h => ⟨_, parse_unparse h⟩, ?_, ?_⟩
  · intro a ha b hb hab
    have hparse := parse_unparse ha
    rw [hab, parse_unparse hb] at hparse
    exact (congrArg Template.segments (Except.ok.inj hparse)).symm
  · rintro s ⟨t, ht⟩
    obtain ⟨-, hnormal, hs⟩ := hread s t ht
    exact ⟨t.segments, hnormal, hs⟩

end Segment
end Stencil
