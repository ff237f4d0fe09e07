import Stencil.Proofs.Bindings
import Stencil.Proofs.Template.Filling

/-!
# Filling in stages

Some names of a template text may get their values first. What is written for them then is the value with its braces
doubled, so that the text stays template text, and the other names can get their values later.

- **`spells_stage`**: what a first stage writes consists of tokens again, whatever stands next to a value.
- **`fill_stageTokens`**: filling these tokens comes to the same as filling all tokens at once.
- **`substitute_in_stages`**: filling template text in two stages is filling it at once.
-/

namespace Stencil

namespace Token

/-- What a first stage writes for a token: the value of its name, each brace twice, or the token as it is if it is no
hole or its name has no value yet. -/
def stage (b : Bindings) : Token → List Char
  | .hole name =>
    match b.get? name with
    | none => (hole name).spelling
    | some value => (Segment.literal value).spelling
  | t => t.spelling

/-- The tokens that a first stage writes for a token. -/
def stageTokens (b : Bindings) : Token → List Token
  | .hole name =>
    match b.get? name with
    | none => [.hole name]
    | some value => (Segment.literal value).tokens
  | t => [t]

variable {b : Bindings} {ts : List Token}

theorem stage_eq (b : Bindings) (t : Token) : t.stage b = (t.stageTokens b).flatMap spelling := by
  cases t with
  | hole name =>
    rw [stage, stageTokens]
    cases b.get? name with
    | none => exact (List.flatMap_singleton _ _).symm
    | some value => exact Segment.spelling_eq (.literal value)
  | _ => exact (List.flatMap_singleton _ _).symm

theorem wellFormed_stageTokens {t : Token} (h : t.WellFormed) : ∀ u ∈ t.stageTokens b, u.WellFormed := by
  intro u hu
  cases t with
  | hole name =>
    rw [stageTokens] at hu
    cases hget : b.get? name with
    | none =>
      rw [hget] at hu
      rw [List.mem_singleton.mp hu]
      exact h
    | some value =>
      rw [hget] at hu
      exact Segment.wellFormed_literal value u hu
  | _ =>
    rw [List.mem_singleton.mp hu]
    exact h

/-- **Tokens again.** A first stage writes template text. -/
theorem spells_stage (h : ∀ t ∈ ts, t.WellFormed) : Spells (ts.flatMap (stageTokens b)) (ts.flatMap (stage b)) := by
  constructor
  · intro u hu
    obtain ⟨t, ht, hu⟩ := List.mem_flatMap.mp hu
    exact wellFormed_stageTokens (h t ht) u hu
  · rw [List.flatMap_assoc]
    exact congrArg ts.flatMap (funext (stage_eq b))

/-- The names that are left are those without a value. -/
theorem names_stageTokens (b : Bindings) (ts : List Token) :
    (ts.flatMap (stageTokens b)).filterMap name? = (ts.filterMap name?).filter (b.get? · = none) := by
  induction ts with
  | nil => rfl
  | cons t ts ih =>
    rw [List.flatMap_cons, List.filterMap_append, ih]
    cases t with
    | hole name =>
      have hnames : (hole name :: ts).filterMap name? = name :: ts.filterMap name? := rfl
      rw [hnames, List.filter_cons, stageTokens]
      cases b.get? name with
      | none => rfl
      | some value => exact congrArg (· ++ _) (filterMap_name?_ofChar value.toList)
    | _ => rfl

/-- **Two stages.** Filling what a first stage left is filling all with the values of the first stage laid over those of
the second. -/
theorem fill_stageTokens (b c : Bindings) (ts : List Token) :
    fill c (ts.flatMap (stageTokens b)) = fill (c.override b) ts := by
  induction ts with
  | nil => rfl
  | cons t ts ih =>
    rw [List.flatMap_cons]
    cases t with
    | hole name =>
      cases hget : b.get? name with
      | none =>
        have hstage : (hole name).stageTokens b = [.hole name] := by rw [stageTokens, hget]
        have htext : (hole name).text (c.override b) = (hole name).text c := by
          rw [text, text, Bindings.get?_override, hget, Option.none_or]
        rw [hstage, List.singleton_append, fill, fill, htext, ih]
      | some value =>
        have hstage : (hole name).stageTokens b = value.toList.map ofChar := by rw [stageTokens, hget]; rfl
        have htext : (hole name).text (c.override b) = .ok value := by
          rw [text, Bindings.get?_override, hget, Option.some_or]
        rw [hstage, fill_literal, fill, htext, ih, String.ofList_toList]
    | _ =>
      simp only [stageTokens, List.singleton_append, fill, ih]
      rfl

end Token

/-- A literal with its braces doubled is filled with itself. -/
theorem substitute_literal (text : String) (b : Bindings) :
    substitute (String.ofList (Segment.literal text).spelling) b = .ok text := by
  have hspells : Spells (Segment.literal text).tokens (String.ofList (Segment.literal text).spelling).toList :=
    ⟨Segment.wellFormed_literal text, by rw [String.toList_ofList, Segment.spelling_eq]⟩
  have hfill := fill_literal b text.toList []
  rw [List.append_nil] at hfill
  rw [substitute_eq hspells, Segment.tokens, hfill]
  simp [Token.fill]

/-- **In stages.** Template text consists of tokens in exactly one way. Let the names that `p` binds get their values
first, each value written with its braces doubled. This leaves template text, whose names are those of the text that `p`
does not bind, in order. Under any bindings `q` it is filled with what the text itself is filled with once the values in
`p` are laid over those in `q`; or both are refused for the same name. A text with its braces doubled is filled with
itself under all bindings. -/
theorem substitute_in_stages (s : String) (p q : Bindings) (h : IsTemplate s.toList) :
    (∃ ts, Spells ts s.toList ∧ (∀ us, Spells us s.toList → us = ts) ∧
      let s' := String.ofList (ts.flatMap (Token.stage p))
      (∃ t t', Template.parse s = .ok t ∧ Template.parse s' = .ok t' ∧ t'.names = t.names.filter (p.get? · = none)) ∧
      ((∃ text, substitute s' q = .ok text ∧ substitute s (q.override p) = .ok text) ∨
        ∃ name, substitute s' q = .error (.unbound ⟨name, s'⟩) ∧
          substitute s (q.override p) = .error (.unbound ⟨name, s⟩))) ∧
    (∀ name, (q.override p).get? name = (p.get? name).or (q.get? name)) ∧
    ∀ (text : String) (b : Bindings), substitute (String.ofList (Segment.literal text).spelling) b = .ok text := by
  obtain ⟨ts, hspells⟩ := h
  refine ⟨⟨ts, hspells, fun us hus => Spells.unique hus hspells, ?_⟩, fun name => Bindings.get?_override q p name,
    substitute_literal⟩
  intro s'
  have hstage : Spells (ts.flatMap (Token.stageTokens p)) s'.toList := by
    rw [String.toList_ofList]
    exact Token.spells_stage hspells.1
  refine ⟨⟨_, _, parse_of_spells hspells, parse_of_spells hstage, ?_⟩, ?_⟩
  · rw [names_eq_tokens, names_eq_tokens, Segment.tokens_gather hspells.1, Segment.tokens_gather hstage.1]
    exact Token.names_stageTokens p ts
  · rw [substitute_eq hspells, substitute_eq hstage, Token.fill_stageTokens]
    cases Token.fill (q.override p) ts with
    | ok text => exact .inl ⟨text, rfl, rfl⟩
    | error name => exact .inr ⟨name, rfl, rfl⟩

/-- A value with a hole and a lone brace in it comes before a doubled brace and another hole. -/
theorem substitute_in_stages_bracedValue :
    let s := "\x7bx\x7d\x7b\x7b\x7by\x7d"
    let s' := "\x7b\x7by\x7d\x7d\x7d\x7d\x7b\x7b\x7by\x7d"
    let p := Bindings.empty.insert "x" "\x7by\x7d\x7d"
    let q := (Bindings.empty.insert "x" "none").insert "y" "!"
    IsTemplate s.toList ∧ (∃ t', Template.parse s' = .ok t' ∧ t'.names = ["y"]) ∧
      substitute s' q = .ok "\x7by\x7d\x7d\x7b!" ∧ substitute s (q.override p) = .ok "\x7by\x7d\x7d\x7b!" := by
  intro s s' p q
  have hx : IsIdentifier "x".toList := (isName_iff _).mp (by decide)
  have hy : IsIdentifier "y".toList := (isName_iff _).mp (by decide)
  have hspells : Spells [.hole "x", .openBrace, .hole "y"] s.toList := by
    refine ⟨?_, by decide⟩
    simp only [List.forall_mem_cons]
    exact ⟨hx, trivial, hy, by simp⟩
  have htemplate : IsTemplate s.toList := ⟨_, hspells⟩
  obtain ⟨⟨ts, -, hunique, hstaged⟩, -, -⟩ := substitute_in_stages s p q htemplate
  obtain rfl := hunique _ hspells
  obtain ⟨⟨t, t', ht, ht', hnames⟩, hfilled⟩ := hstaged
  have hs' : String.ofList ([.hole "x", .openBrace, .hole "y"].flatMap (Token.stage p)) = s' := by decide +kernel
  rw [hs'] at ht' hfilled
  have hparse : Template.parse s = .ok ⟨s, [.hole "x", .literal "\x7b", .hole "y"]⟩ := parse_of_spells hspells
  obtain rfl := Except.ok.inj (hparse.symm.trans ht)
  refine ⟨htemplate, ⟨t', ht', hnames.trans (by decide +kernel)⟩, ?_⟩
  have hfill : substitute s (q.override p) = .ok "\x7by\x7d\x7d\x7b!" := by decide +kernel
  rcases hfilled with ⟨text, hfirst, hboth⟩ | ⟨name, -, hboth⟩
  · obtain rfl := Except.ok.inj (hboth.symm.trans hfill)
    exact ⟨hfirst, hfill⟩
  · cases hboth.symm.trans hfill

end Stencil
