import Stencil.Template.Substitute
import Stencil.Proofs.Template.Segments

/-!
# Filling in one pass

A template is read into segments and these are filled. The same comes of going once over the tokens of its text, putting
for each token what it comes to (`Token.fill`).

- **`fill_eq`**: segments are filled like their tokens.
- **`fill_ok_iff`**, **`fill_error_iff`**: when the pass goes through, what it gives, and which name stops it.
- **`substitute_in_one_pass`**: filling template text, told from the tokens of the text alone.
-/

namespace Stencil

namespace Token

/-- What a token comes to: the character that it stands for, or the value of its name. A name without a value is given
back as the error. -/
def text (b : Bindings) : Token → Except String String
  | .plain c => .ok (.singleton c)
  | .openBrace => .ok (.singleton '{')
  | .closeBrace => .ok (.singleton '}')
  | .hole name =>
    match b.get? name with
    | none => .error name
    | some value => .ok value

/-- The name of a hole. -/
def name? : Token → Option String
  | .hole name => some name
  | _ => none

/-- Puts for each token what it comes to, up to the first name that has no value. -/
def fill (b : Bindings) : List Token → Except String String
  | [] => .ok ""
  | t :: ts =>
    match t.text b with
    | .error name => .error name
    | .ok text =>
      match fill b ts with
      | .error name => .error name
      | .ok filled => .ok (text ++ filled)

variable {b : Bindings} {ts : List Token}

theorem text_ofChar (b : Bindings) (c : Char) : (ofChar c).text b = .ok (.singleton c) := by
  unfold ofChar
  split
  · next h => rw [h]; rfl
  · split
    · next h => rw [h]; rfl
    · rfl

theorem text_eq_error_iff {t : Token} {name : String} :
    t.text b = .error name ↔ t = .hole name ∧ b.get? name = none := by
  cases t with
  | hole n =>
    rw [text]
    split
    · next h =>
      constructor
      · intro e
        cases e
        exact ⟨rfl, h⟩
      · rintro ⟨e, -⟩
        cases e
        rfl
    · next value h =>
      constructor
      · intro e
        cases e
      · rintro ⟨e, hnone⟩
        cases e
        rw [h] at hnone
        cases hnone
  | _ =>
    constructor
    · intro e
      cases e
    · rintro ⟨e, -⟩
      cases e

/-- A token comes to a text unless it is a hole whose name has no value. -/
theorem exists_text_iff {t : Token} : (∃ text, t.text b = .ok text) ↔ ∀ name, t = .hole name → b.get? name ≠ none := by
  constructor
  · rintro ⟨text, h⟩ name ht hnone
    rw [text_eq_error_iff.mpr ⟨ht, hnone⟩] at h
    cases h
  · intro h
    cases ht : t.text b with
    | ok text => exact ⟨text, rfl⟩
    | error name =>
      obtain ⟨hhole, hnone⟩ := text_eq_error_iff.mp ht
      exact absurd hnone (h name hhole)

/-! ## The pass -/

theorem fill_cons_ok {t : Token} {filled : String} :
    fill b (t :: ts) = .ok filled ↔
      ∃ text rest, t.text b = .ok text ∧ fill b ts = .ok rest ∧ text ++ rest = filled := by
  rw [fill]
  split
  · next h => simp [h]
  · next text h =>
    split
    · next hts => simp [hts]
    · next rest hts => simp [h, hts]

theorem fill_cons_error {t : Token} {name : String} :
    fill b (t :: ts) = .error name ↔
      t.text b = .error name ∨ (∃ text, t.text b = .ok text) ∧ fill b ts = .error name := by
  rw [fill]
  split
  · next h => simp [h]
  · next text h =>
    split
    · next hts => simp [h, hts]
    · next rest hts => simp [h, hts]

/-- The pass goes through when every token comes to a text, and puts these texts one after another. -/
theorem fill_ok_iff {filled : String} :
    fill b ts = .ok filled ↔ ∃ texts, ts.map (text b) = texts.map .ok ∧ String.join texts = filled := by
  induction ts generalizing filled with
  | nil =>
    constructor
    · intro h
      exact ⟨[], rfl, Except.ok.inj h⟩
    · rintro ⟨texts, htexts, rfl⟩
      obtain rfl : texts = [] := List.map_eq_nil_iff.mp htexts.symm
      rfl
  | cons t ts ih =>
    rw [fill_cons_ok]
    constructor
    · rintro ⟨x, rest, hx, hrest, rfl⟩
      obtain ⟨texts, htexts, rfl⟩ := ih.mp hrest
      exact ⟨x :: texts, by rw [List.map_cons, List.map_cons, hx, htexts], String.join_cons⟩
    · rintro ⟨texts, htexts, rfl⟩
      cases texts with
      | nil => cases htexts
      | cons x texts =>
        obtain ⟨hx, htexts⟩ := List.cons.inj htexts
        exact ⟨x, String.join texts, hx, ih.mpr ⟨texts, htexts, rfl⟩, String.join_cons.symm⟩

/-- The pass stops at the first name that has no value. -/
theorem fill_error_iff {name : String} :
    fill b ts = .error name ↔
      ∃ before after, ts = before ++ .hole name :: after ∧ (∀ n, .hole n ∈ before → b.get? n ≠ none) ∧
        b.get? name = none := by
  induction ts with
  | nil =>
    constructor
    · intro h
      cases h
    · rintro ⟨before, after, h, -⟩
      exact absurd h.symm (by simp)
  | cons t ts ih =>
    rw [fill_cons_error, text_eq_error_iff, exists_text_iff, ih]
    constructor
    · rintro (⟨rfl, hnone⟩ | ⟨ht, before, after, rfl, hbefore, hnone⟩)
      · exact ⟨[], ts, rfl, fun _ hn => absurd hn List.not_mem_nil, hnone⟩
      · refine ⟨t :: before, after, rfl, fun n hn => ?_, hnone⟩
        rcases List.mem_cons.mp hn with hn | hn
        · exact ht n hn.symm
        · exact hbefore n hn
    · rintro ⟨before, after, hts, hbefore, hnone⟩
      cases before with
      | nil => exact .inl ⟨(List.cons.inj hts).1, hnone⟩
      | cons u before =>
        obtain ⟨rfl, hrest⟩ := List.cons.inj hts
        refine .inr ⟨fun n ht => hbefore n (ht ▸ List.mem_cons_self), before, after, hrest, fun n hn => ?_, hnone⟩
        exact hbefore n (List.mem_cons_of_mem _ hn)

/-- The pass goes through exactly when all names have values. -/
theorem exists_fill_iff : (∃ filled, fill b ts = .ok filled) ↔ ∀ name, .hole name ∈ ts → b.get? name ≠ none := by
  induction ts with
  | nil => exact ⟨fun _ _ h => absurd h List.not_mem_nil, fun _ => ⟨"", rfl⟩⟩
  | cons t ts ih =>
    have hcons : (∃ filled, fill b (t :: ts) = .ok filled) ↔
        (∃ text, t.text b = .ok text) ∧ ∃ rest, fill b ts = .ok rest := by
      simp only [fill_cons_ok]
      constructor
      · rintro ⟨_, x, rest, hx, hrest, -⟩
        exact ⟨⟨x, hx⟩, rest, hrest⟩
      · rintro ⟨⟨x, hx⟩, rest, hrest⟩
        exact ⟨x ++ rest, x, rest, hx, hrest, rfl⟩
    rw [hcons, exists_text_iff, ih]
    simp only [List.mem_cons, or_imp, forall_and, eq_comm]

end Token

/-! ## Segments like tokens -/

variable {b : Bindings} {s : String} {ts : List Token}

theorem fill_literal (b : Bindings) (text : List Char) (ts : List Token) :
    Token.fill b (text.map Token.ofChar ++ ts) =
      match Token.fill b ts with
      | .error name => .error name
      | .ok filled => .ok (String.ofList text ++ filled) := by
  induction text with
  | nil =>
    rw [List.map_nil, List.nil_append]
    cases Token.fill b ts with
    | error name => rfl
    | ok filled => simp
  | cons c text ih =>
    rw [List.map_cons, List.cons_append, Token.fill, Token.text_ofChar, ih]
    cases Token.fill b ts with
    | error name => rfl
    | ok filled => simp [String.ofList_cons, String.append_assoc]

/-- **Segments are filled like their tokens.** -/
theorem fill_eq (b : Bindings) (segments : List Segment) :
    Segment.fill b segments = Token.fill b (segments.flatMap Segment.tokens) := by
  induction segments with
  | nil => rfl
  | cons segment rest ih =>
    rw [List.flatMap_cons]
    cases segment with
    | literal text =>
      cases h : Token.fill b (rest.flatMap Segment.tokens) with
      | error name => simp only [Segment.tokens, fill_literal, Segment.fill, ih, h]
      | ok filled => simp only [Segment.tokens, fill_literal, Segment.fill, ih, h, String.ofList_toList]
    | hole name =>
      rw [Segment.tokens, List.singleton_append, Segment.fill, Token.fill, Token.text, ih]
      cases b.get? name <;> rfl

/-- No character is a hole. -/
theorem filterMap_name?_ofChar (cs : List Char) : (cs.map Token.ofChar).filterMap Token.name? = [] := by
  rw [List.filterMap_eq_nil_iff]
  intro u hu
  obtain ⟨c, -, rfl⟩ := List.mem_map.mp hu
  unfold Token.ofChar
  split
  · rfl
  · split <;> rfl

theorem names_eq_tokens (t : Template) : t.names = (t.segments.flatMap Segment.tokens).filterMap Token.name? := by
  rw [Template.names]
  induction t.segments with
  | nil => rfl
  | cons segment rest ih =>
    rw [List.flatMap_cons, List.filterMap_append, List.filterMap_cons]
    cases segment with
    | literal text =>
      rw [Segment.tokens, filterMap_name?_ofChar, List.nil_append]
      exact ih
    | hole name => exact congrArg (name :: ·) ih

/-! ## The names that matter -/

theorem Template.mem_names_iff {t : Template} {name : String} : name ∈ t.names ↔ .hole name ∈ t.segments := by
  rw [Template.names, List.mem_filterMap]
  constructor
  · rintro ⟨segment, hmem, hname⟩
    cases segment with
    | literal text => cases hname
    | hole n =>
      obtain rfl : n = name := Option.some.inj hname
      exact hmem
  · exact fun hmem => ⟨.hole name, hmem, rfl⟩

theorem Segment.fill_congr {c : Bindings} {segments : List Segment}
    (h : ∀ name, .hole name ∈ segments → c.get? name = b.get? name) : fill c segments = fill b segments := by
  induction segments with
  | nil => rfl
  | cons segment rest ih =>
    have hrest := ih fun name hname => h name (List.mem_cons_of_mem _ hname)
    cases segment with
    | literal text => rw [fill, fill, hrest]
    | hole name => rw [fill, fill, h name List.mem_cons_self, hrest]

/-- Bindings that agree on the names of a template fill it alike. -/
theorem Template.fill_congr {t : Template} {c : Bindings} (h : ∀ name ∈ t.names, c.get? name = b.get? name) :
    t.fill c = t.fill b := by
  rw [fill, fill, Segment.fill_congr fun name hname => h name (mem_names_iff.mpr hname)]

/-- A template whose names all have values is filled. -/
theorem Template.exists_fill {t : Template} (h : ∀ name ∈ t.names, b.get? name ≠ none) :
    ∃ text, t.fill b = .ok text := by
  obtain ⟨text, htext⟩ := Token.exists_fill_iff.mpr fun name (hname : .hole name ∈ t.segments.flatMap Segment.tokens) =>
    h name (names_eq_tokens t ▸ List.mem_filterMap.mpr ⟨.hole name, hname, rfl⟩)
  exact ⟨text, by rw [fill, fill_eq, htext]⟩

/-! ## Template text -/

/-- The template that is read from a text has the names of the tokens that the text consists of. -/
theorem names_of_spells (h : Spells ts s.toList) :
    Template.names ⟨s, Segment.gather ts⟩ = ts.filterMap Token.name? := by
  rw [names_eq_tokens, Segment.tokens_gather h.1]

/-- The template that is read from a text is filled like the tokens that the text consists of. -/
theorem fill_of_spells (h : Spells ts s.toList) (b : Bindings) :
    Template.fill ⟨s, Segment.gather ts⟩ b =
      match Token.fill b ts with
      | .error name => .error ⟨name, s⟩
      | .ok text => .ok text := by
  have hfill : Segment.fill b (Segment.gather ts) = Token.fill b ts := by rw [fill_eq, Segment.tokens_gather h.1]
  cases hts : Token.fill b ts <;> simp only [Template.fill, hfill, hts]

theorem fill_eq_ok_iff (h : Spells ts s.toList) {text : String} :
    Template.fill ⟨s, Segment.gather ts⟩ b = .ok text ↔ Token.fill b ts = .ok text := by
  rw [fill_of_spells h]
  cases Token.fill b ts <;> simp

/-- Template text is filled in one pass over its tokens. -/
theorem substitute_eq (h : Spells ts s.toList) :
    substitute s b =
      match Token.fill b ts with
      | .error name => .error (.unbound ⟨name, s⟩)
      | .ok text => .ok text := by
  rw [substitute, parse_of_spells h]
  simp only [fill_of_spells h]
  cases Token.fill b ts <;> rfl

/-- **One pass.** Template text consists of tokens in exactly one way. It is filled exactly when the names of all its
holes have values, with what its tokens come to, one after another; a value is put in as it is. Otherwise the leftmost
name without a value is reported, with the whole text. The names of the template are those of the holes, in order. -/
theorem substitute_in_one_pass (s : String) (b : Bindings) (h : IsTemplate s.toList) :
    ∃ ts, Spells ts s.toList ∧ (∀ us, Spells us s.toList → us = ts) ∧
      ((∃ text, substitute s b = .ok text) ↔ ∀ name, .hole name ∈ ts → b.get? name ≠ none) ∧
      (∀ text, substitute s b = .ok text ↔
        ∃ texts, ts.map (Token.text b) = texts.map .ok ∧ String.join texts = text) ∧
      (∀ f, substitute s b = .error f ↔
        ∃ before name after, ts = before ++ .hole name :: after ∧ (∀ n, .hole n ∈ before → b.get? n ≠ none) ∧
          b.get? name = none ∧ f = .unbound ⟨name, s⟩) ∧
      ∃ t, Template.parse s = .ok t ∧ t.names = ts.filterMap Token.name? := by
  obtain ⟨ts, hts, hs⟩ := h
  have hspells : Spells ts s.toList := ⟨hts, hs⟩
  have hok : ∀ text, substitute s b = .ok text ↔ Token.fill b ts = .ok text := by
    intro text
    rw [substitute_eq hspells]
    cases Token.fill b ts <;> simp
  refine ⟨ts, hspells, fun us hus => hus.unique hspells, ?_, fun text => ?_, fun f => ?_, ?_⟩
  · simp only [hok]
    exact Token.exists_fill_iff
  · rw [hok]
    exact Token.fill_ok_iff
  · rw [substitute_eq hspells]
    constructor
    · intro hf
      cases hfill : Token.fill b ts with
      | ok text =>
        rw [hfill] at hf
        cases hf
      | error name =>
        rw [hfill] at hf
        obtain ⟨before, after, hsplit, hbefore, hnone⟩ := Token.fill_error_iff.mp hfill
        exact ⟨before, name, after, hsplit, hbefore, hnone, (Except.error.inj hf).symm⟩
    · rintro ⟨before, name, after, hsplit, hbefore, hnone, rfl⟩
      rw [Token.fill_error_iff.mpr ⟨before, after, hsplit, hbefore, hnone⟩]
  · refine ⟨_, parse_of_spells hspells, ?_⟩
    rw [names_eq_tokens, Segment.tokens_gather hts]

/-- A hole between doubled braces, and a second hole whose spelling is the value of the first. -/
theorem substitute_in_one_pass_bracedHole :
    let s := "\x7b\x7b\x7bx\x7d\x7d\x7d \x7by\x7d"
    let b := Bindings.empty.insert "x" "\x7by\x7d"
    IsTemplate s.toList ∧ substitute s b = .error (.unbound ⟨"y", s⟩) ∧
      substitute s (b.insert "y" "!") = .ok "\x7b\x7by\x7d\x7d !" := by
  intro s b
  have hx : IsIdentifier "x".toList := (isName_iff _).mp (by decide)
  have hy : IsIdentifier "y".toList := (isName_iff _).mp (by decide)
  have hspells : Spells [.openBrace, .hole "x", .closeBrace, .plain ' ', .hole "y"] s.toList := by
    refine ⟨?_, by decide⟩
    simp only [List.forall_mem_cons]
    exact ⟨trivial, hx, trivial, ⟨by decide, by decide⟩, hy, by simp⟩
  have htemplate : IsTemplate s.toList := ⟨_, hspells⟩
  refine ⟨htemplate, ?_, ?_⟩
  · obtain ⟨ts, -, hunique, -, -, herror, -⟩ := substitute_in_one_pass s b htemplate
    obtain rfl := hunique _ hspells
    exact (herror _).mpr ⟨[.openBrace, .hole "x", .closeBrace, .plain ' '], "y", [], rfl, by simp [b], by simp [b], rfl⟩
  · obtain ⟨ts, -, hunique, -, hok, -⟩ := substitute_in_one_pass s (b.insert "y" "!") htemplate
    obtain rfl := hunique _ hspells
    exact (hok _).mpr ⟨["\x7b", "\x7by\x7d", "\x7d", " ", "!"], by simp [Token.text, b], by decide⟩

end Stencil
