import Stencil.Proofs.Template.Filling

/-!
# Texts one after another

Template text ends at the end of a token. So whatever text follows it is read as it is read alone, even where braces
meet, and is filled behind what the template text is filled with.

- **`Spells.scan_append`**: what follows template text is read as if it stood alone.
- **`fill_append`**: tokens are filled one after another.
- **`fill_eq_error_iff`**: a template is refused for the first of its names that has no value.
- **`parse_append`**: reading and filling template text with other text behind it.
-/

namespace Stencil

variable {ts us : List Token} {cs ds : List Char} {s : String} {b : Bindings}

/-! ## Reading -/

/-- **The seam.** What follows template text is read as if it stood alone. -/
theorem Spells.scan_append (h : Spells ts cs) (ds : List Char) :
    Token.scan (cs ++ ds) = (ts ++ (Token.scan ds).1, (Token.scan ds).2) := by
  rw [h.2, Token.scan_spelling_append h.1]

theorem Spells.append (h : Spells ts cs) (h' : Spells us ds) : Spells (ts ++ us) (cs ++ ds) := by
  refine ⟨fun t ht => ?_, by rw [h.2, h'.2, List.flatMap_append]⟩
  rcases List.mem_append.mp ht with ht | ht
  · exact h.1 t ht
  · exact h'.1 t ht

/-- The tokens of a text take as many bytes as the text. -/
theorem Spells.bytes_eq (h : Spells ts s.toList) : Token.bytes ts = s.utf8ByteSize := by
  rw [Token.bytes, ← h.2, byteLength_eq, String.ofList_toList]

namespace Token

theorem bytes_append (ts us : List Token) : bytes (ts ++ us) = bytes ts + bytes us := by
  simp only [bytes, byteLength_eq, List.flatMap_append, String.ofList_append, String.utf8ByteSize_append]

end Token

/-- Text is refused for the defect that its tokens lead up to. -/
theorem parse_eq_error_iff {m : Malformed} :
    Template.parse s = .error m ↔
      ∃ ts d, Token.scan s.toList = (ts, some d) ∧ m = ⟨s, Token.bytes ts, d⟩ := by
  rw [Template.parse]
  rcases Token.scan s.toList with ⟨ts, _ | d⟩
  · simp
  · simp [eq_comm]

/-! ## Filling -/

namespace Token

/-- Tokens are filled one after another, the second only if the first can be. -/
theorem fill_append (b : Bindings) (ts us : List Token) :
    fill b (ts ++ us) = (fill b ts).bind fun text => (fill b us).map (text ++ ·) := by
  induction ts with
  | nil =>
    rw [List.nil_append]
    cases h : fill b us with
    | error name => rfl
    | ok more => simp [fill, Except.bind, Except.map]
  | cons t ts ih =>
    rw [List.cons_append, fill, fill, ih]
    cases t.text b with
    | error name => rfl
    | ok text =>
      cases fill b ts with
      | error name => rfl
      | ok filled =>
        cases fill b us with
        | error name => rfl
        | ok more => simp [Except.bind, Except.map, String.append_assoc]

/-- The pass stops at the first name that has no value, if there is one. -/
theorem fill_error_iff_find {name : String} :
    fill b ts = .error name ↔ (ts.filterMap name?).find? (b.get? · = none) = some name := by
  induction ts with
  | nil => simp [fill]
  | cons t ts ih =>
    cases t with
    | hole n =>
      have hnames : (hole n :: ts).filterMap name? = n :: ts.filterMap name? := rfl
      rw [hnames, List.find?_cons, fill, text]
      cases b.get? n with
      | none => simp
      | some value =>
        refine Iff.trans ?_ ih
        cases fill b ts <;> simp
    | _ =>
      rw [fill_cons_error, ih]
      simp [text, name?]

end Token

/-- The first name of the template that has no value. -/
def Template.unbound? (t : Template) (b : Bindings) : Option String := t.names.find? (b.get? · = none)

/-- **The name that stops filling** is the first without a value. -/
theorem fill_eq_error_iff {t : Template} {u : Unbound} :
    t.fill b = .error u ↔ t.unbound? b = some u.name ∧ u.template = t.source := by
  obtain ⟨name, template⟩ := u
  rw [Template.unbound?, names_eq_tokens, ← Token.fill_error_iff_find, ← fill_eq, Template.fill]
  cases Segment.fill b t.segments with
  | error n => simp [eq_comm]
  | ok text => simp

theorem unbound?_eq_none_iff {t : Template} : t.unbound? b = none ↔ ∃ text, t.fill b = .ok text := by
  constructor
  · intro hnone
    cases hfill : t.fill b with
    | ok text => exact ⟨text, rfl⟩
    | error u => cases hnone.symm.trans (fill_eq_error_iff.mp hfill).1
  · rintro ⟨text, hfill⟩
    by_contra hne
    obtain ⟨name, hname⟩ := Option.ne_none_iff_exists'.mp hne
    have herror : t.fill b = .error ⟨name, t.source⟩ := fill_eq_error_iff.mpr ⟨hname, rfl⟩
    cases hfill.symm.trans herror

/-! ## Template text with other text behind it -/

/-- **Texts one after another.** Let a text be a template. With another text behind it, it is a template exactly if the
other text is one. Then its names are those of the first template and after them those of the second; it is refused for
the first of these names that has no value, and otherwise filled with what the first template is filled with and after
it what the second is. If the other text is no template, the two are refused together for the same reason, at the byte
of the other text moved by the length of the first. -/
theorem parse_append (s s' : String) {t : Template} (h : Template.parse s = .ok t) :
    ((∃ v, Template.parse (s ++ s') = .ok v) ↔ ∃ u, Template.parse s' = .ok u) ∧
    (∀ u, Template.parse s' = .ok u → ∃ v, Template.parse (s ++ s') = .ok v ∧ v.names = t.names ++ u.names ∧
      ∀ b : Bindings, match (t.unbound? b).or (u.unbound? b) with
        | some name => v.fill b = .error ⟨name, s ++ s'⟩
        | none => ∃ x y, t.fill b = .ok x ∧ u.fill b = .ok y ∧ v.fill b = .ok (x ++ y)) ∧
    ∀ m, Template.parse s' = .error m →
      Template.parse (s ++ s') = .error ⟨s ++ s', s.utf8ByteSize + m.position, m.defect⟩ := by
  obtain ⟨ts, hts, rfl⟩ := parse_eq_ok_iff.mp h
  have hok : ∀ u, Template.parse s' = .ok u → ∃ us, Spells us s'.toList ∧ u = ⟨s', Segment.gather us⟩ ∧
      Spells (ts ++ us) (s ++ s').toList := by
    intro u hu
    obtain ⟨us, hus, rfl⟩ := parse_eq_ok_iff.mp hu
    exact ⟨us, hus, rfl, String.toList_append ▸ hts.append hus⟩
  have herror : ∀ m, Template.parse s' = .error m →
      Template.parse (s ++ s') = .error ⟨s ++ s', s.utf8ByteSize + m.position, m.defect⟩ := by
    intro m hm
    obtain ⟨us, d, hscan, rfl⟩ := parse_eq_error_iff.mp hm
    refine parse_eq_error_iff.mpr ⟨ts ++ us, d, ?_, ?_⟩
    · rw [String.toList_append, hts.scan_append, hscan]
    · rw [Token.bytes_append, hts.bytes_eq]
  refine ⟨⟨?_, ?_⟩, ?_, herror⟩
  · rintro ⟨v, hv⟩
    cases hs' : Template.parse s' with
    | ok u => exact ⟨u, rfl⟩
    | error m => cases hv.symm.trans (herror m hs')
  · rintro ⟨u, hu⟩
    obtain ⟨us, -, -, hboth⟩ := hok u hu
    exact ⟨_, parse_of_spells hboth⟩
  · intro u hu
    obtain ⟨us, hus, rfl, hboth⟩ := hok u hu
    have hnames : Template.names ⟨s ++ s', Segment.gather (ts ++ us)⟩ =
        Template.names ⟨s, Segment.gather ts⟩ ++ Template.names ⟨s', Segment.gather us⟩ := by
      rw [names_of_spells hboth, names_of_spells hts, names_of_spells hus, List.filterMap_append]
    refine ⟨_, parse_of_spells hboth, hnames, fun b => ?_⟩
    split
    · next name hname =>
      refine fill_eq_error_iff.mpr ⟨?_, rfl⟩
      rwa [Template.unbound?, hnames, List.find?_append]
    · next hnone =>
      obtain ⟨hfirst, hsecond⟩ := Option.or_eq_none_iff.mp hnone
      obtain ⟨x, hx⟩ := unbound?_eq_none_iff.mp hfirst
      obtain ⟨y, hy⟩ := unbound?_eq_none_iff.mp hsecond
      refine ⟨x, y, hx, hy, (fill_eq_ok_iff hboth).mpr ?_⟩
      rw [Token.fill_append, (fill_eq_ok_iff hts).mp hx, (fill_eq_ok_iff hus).mp hy]
      rfl

/-- Doubled braces end the first text, and a brace begins the second. -/
theorem parse_append_seam :
    let s := "é\x7b\x7b"
    let b := Bindings.empty.insert "x" "\x7d"
    (∃ t, Template.parse s = .ok t ∧ t.names = []) ∧
      (∃ v, Template.parse (s ++ "\x7bx\x7d") = .ok v ∧ v.names = ["x"] ∧ v.fill b = .ok "é\x7b\x7d" ∧
        v.fill .empty = .error ⟨"x", "é\x7b\x7b\x7bx\x7d"⟩) ∧
      Template.parse (s ++ "\x7d") = .error ⟨"é\x7b\x7b\x7d", 4, .unmatched⟩ := by
  intro s b
  have hs : Template.parse s = .ok ⟨s, [.literal "é\x7b"]⟩ := by decide +kernel
  have hx : Template.parse "\x7bx\x7d" = .ok ⟨"\x7bx\x7d", [.hole "x"]⟩ := by decide +kernel
  have hd : Template.parse "\x7d" = .error ⟨"\x7d", 0, .unmatched⟩ := by decide +kernel
  obtain ⟨-, hok, -⟩ := parse_append s "\x7bx\x7d" hs
  obtain ⟨-, -, herror⟩ := parse_append s "\x7d" hs
  obtain ⟨v, hv, hnames, hfill⟩ := hok _ hx
  have hbound := hfill b
  have hempty := hfill .empty
  refine ⟨⟨_, hs, rfl⟩, ⟨v, hv, hnames, ?_, hempty⟩, herror _ hd⟩
  obtain ⟨x, y, hfirst, hsecond, hboth⟩ := hbound
  obtain rfl : "é\x7b" = x := Except.ok.inj ((by decide +kernel : _ = Except.ok "é\x7b").symm.trans hfirst)
  obtain rfl : "\x7d" = y := Except.ok.inj ((by decide +kernel : _ = Except.ok "\x7d").symm.trans hsecond)
  exact hboth

end Stencil
