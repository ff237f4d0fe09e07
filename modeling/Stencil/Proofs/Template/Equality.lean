import Stencil.Proofs.Bindings
import Stencil.Proofs.Template.Filling

/-!
# Equal templates

Two templates are the same if nothing can be told from what they are filled with. Values of one character each are
enough to tell them apart: then every token comes to one character, so two templates that are filled alike have as many
tokens, and tokens at the same place come to the same character whatever the values are.

- **`Token.eq_of_lead_eq`**: tokens that come to the same character under all such values are the same.
- **`Token.eq_of_map_lead_eq`**: so are lists of tokens.
- **`template_eq_iff`**: equality of templates, of their texts, and of what they are filled with.
-/

namespace Stencil

namespace Token

/-- The character that a token comes to if the value of each name is a single character. -/
def lead (value : String → Char) : Token → Char
  | .plain c => c
  | .openBrace => '{'
  | .closeBrace => '}'
  | .hole name => value name

variable {t u : Token} {ts us : List Token} {b : Bindings}

theorem lead_ofChar (value : String → Char) (c : Char) : (ofChar c).lead value = c := by
  unfold ofChar
  split
  · next h => exact h.symm
  · split
    · next h => exact h.symm
    · rfl

/-- A token is a hole or is written for a character. -/
theorem hole_or_ofChar (h : t.WellFormed) : (∃ name, t = .hole name) ∨ ∃ c, t = ofChar c := by
  cases t with
  | plain c => exact .inr ⟨c, (Segment.ofChar_plain h).symm⟩
  | openBrace => exact .inr ⟨'{', rfl⟩
  | closeBrace => exact .inr ⟨'}', rfl⟩
  | hole name => exact .inl ⟨name, rfl⟩

/-- A value can be chosen for a hole that is not a given character. -/
theorem exists_ne (c : Char) : ∃ d : Char, d ≠ c := by
  by_cases h : c = 'a'
  · exact ⟨'b', by rw [h]; decide⟩
  · exact ⟨'a', Ne.symm h⟩

/-- **Two tokens** that always come to the same character are the same. -/
theorem eq_of_lead_eq (ht : t.WellFormed) (hu : u.WellFormed) (h : ∀ value, t.lead value = u.lead value) : t = u := by
  rcases hole_or_ofChar ht with ⟨m, rfl⟩ | ⟨c, rfl⟩
  · rcases hole_or_ofChar hu with ⟨n, rfl⟩ | ⟨d, rfl⟩
    · -- two names are told apart by a value that one of them alone has
      by_contra hne
      have hmn : n ≠ m := fun e => hne (e ▸ rfl)
      have happart := h fun name => if name = m then 'a' else 'b'
      simp [lead, hmn] at happart
    · obtain ⟨e, he⟩ := exists_ne d
      exact absurd ((h fun _ => e).trans (lead_ofChar _ d)) he
  · rcases hole_or_ofChar hu with ⟨n, rfl⟩ | ⟨d, rfl⟩
    · obtain ⟨e, he⟩ := exists_ne c
      exact absurd ((h fun _ => e).symm.trans (lead_ofChar _ c)) he
    · have hcd := h fun _ => 'a'
      rw [lead_ofChar, lead_ofChar] at hcd
      rw [hcd]

/-- **Lists of tokens** that always come to the same characters are the same. -/
theorem eq_of_map_lead_eq (hts : ∀ t ∈ ts, t.WellFormed) (hus : ∀ u ∈ us, u.WellFormed)
    (h : ∀ value, ts.map (lead value) = us.map (lead value)) : ts = us := by
  induction ts generalizing us with
  | nil => exact (List.map_eq_nil_iff.mp (h fun _ => 'a').symm).symm
  | cons t ts ih =>
    cases us with
    | nil => cases h fun _ => 'a'
    | cons u us =>
      rw [List.forall_mem_cons] at hts hus
      have hhead : t = u := eq_of_lead_eq hts.1 hus.1 fun value => (List.cons.inj (h value)).1
      have htail : ts = us := ih hts.2 hus.2 fun value => (List.cons.inj (h value)).2
      rw [hhead, htail]

/-- With values of one character the pass gives one character for each token. -/
theorem fill_of_lead {value : String → Char}
    (h : ∀ name, .hole name ∈ ts → b.get? name = some (.singleton (value name))) :
    fill b ts = .ok (String.ofList (ts.map (lead value))) := by
  induction ts with
  | nil => rfl
  | cons t ts ih =>
    have htext : t.text b = .ok (.singleton (t.lead value)) := by
      cases t with
      | hole name => rw [text, h name List.mem_cons_self]; rfl
      | _ => rfl
    have hrest := ih fun name hname => h name (List.mem_cons_of_mem t hname)
    exact fill_cons_ok.mpr ⟨_, _, htext, hrest, String.ofList_cons.symm⟩

end Token

/-- Bindings that give each of the names a single character. -/
def Bindings.characters (value : String → Char) (names : List String) : Bindings :=
  ofList (names.map fun name => (name, .singleton (value name)))

theorem get?_characters (value : String → Char) {names : List String} {name : String} (h : name ∈ names) :
    (Bindings.characters value names).get? name = some (.singleton (value name)) := by
  rw [Bindings.characters, Bindings.get?_ofList, Bindings.lastValue_map (fun name => .singleton (value name)), if_pos h]

/-- Under such bindings a template that is read from a text is filled with one character for each of its tokens. -/
theorem fill_characters {s : String} {ts : List Token} (h : Spells ts s.toList) (value : String → Char)
    {names : List String} (hnames : ∀ name ∈ Template.names ⟨s, Segment.gather ts⟩, name ∈ names) :
    Template.fill ⟨s, Segment.gather ts⟩ (.characters value names) =
      .ok (String.ofList (ts.map (Token.lead value))) := by
  rw [names_of_spells h] at hnames
  refine (fill_eq_ok_iff h).mpr (Token.fill_of_lead fun name hname => get?_characters value (hnames name ?_))
  exact List.mem_filterMap.mpr ⟨.hole name, hname, rfl⟩

/-- **Equal templates.** Let two texts be templates. The templates are equal exactly if the texts are, and exactly if
under all bindings that give the names of both a value they are filled with the same text. -/
theorem template_eq_iff {s s' : String} {t u : Template} (ht : Template.parse s = .ok t)
    (hu : Template.parse s' = .ok u) :
    (t = u ↔ s = s') ∧
    (t = u ↔ ∀ b : Bindings, (∀ name ∈ t.names ++ u.names, b.get? name ≠ none) →
      ∃ text, t.fill b = .ok text ∧ u.fill b = .ok text) := by
  obtain ⟨ts, hts, rfl⟩ := parse_eq_ok_iff.mp ht
  obtain ⟨us, hus, rfl⟩ := parse_eq_ok_iff.mp hu
  refine ⟨⟨congrArg Template.source, fun h => ?_⟩, fun h b hb => ?_, fun h => ?_⟩
  · subst h
    exact Except.ok.inj (ht.symm.trans hu)
  · obtain ⟨text, htext⟩ := Template.exists_fill fun name hname => hb name (List.mem_append_left _ hname)
    exact ⟨text, htext, h ▸ htext⟩
  · have hlead : ∀ value, ts.map (Token.lead value) = us.map (Token.lead value) := by
      intro value
      obtain ⟨text, hfirst, hsecond⟩ := h (.characters value _) fun name hname => by
        rw [get?_characters value hname]
        exact Option.some_ne_none _
      rw [fill_characters hts value fun _ => List.mem_append_left _] at hfirst
      rw [fill_characters hus value fun _ => List.mem_append_right _] at hsecond
      exact String.ofList_injective (Except.ok.inj (hfirst.trans hsecond.symm))
    obtain rfl := Token.eq_of_map_lead_eq hts.1 hus.1 hlead
    obtain rfl : s = s' := String.toList_injective (hts.2.trans hus.2.symm)
    rfl

/-- Two holes that some values fill alike and others do not. -/
theorem template_eq_iff_twoHoles :
    let t : Template := ⟨"\x7bx\x7d", [.hole "x"]⟩
    let u : Template := ⟨"\x7by\x7d", [.hole "y"]⟩
    let alike := (Bindings.empty.insert "x" "1").insert "y" "1"
    Template.parse "\x7bx\x7d" = .ok t ∧ Template.parse "\x7by\x7d" = .ok u ∧
      t.fill alike = .ok "1" ∧ u.fill alike = .ok "1" ∧ t ≠ u ∧
      ∃ b : Bindings, (∀ name ∈ ["x", "y"], b.get? name ≠ none) ∧
        ¬ ∃ text, t.fill b = .ok text ∧ u.fill b = .ok text := by
  intro t u alike
  have ht : Template.parse "\x7bx\x7d" = .ok t := by decide +kernel
  have hu : Template.parse "\x7by\x7d" = .ok u := by decide +kernel
  obtain ⟨hsource, hfill⟩ := template_eq_iff ht hu
  have hne : t ≠ u := fun h => absurd (hsource.mp h) (by decide)
  have hapart := mt hfill.mpr hne
  simp only [not_forall] at hapart
  obtain ⟨b, hbound, hb⟩ := hapart
  exact ⟨ht, hu, by decide +kernel, by decide +kernel, hne, b, hbound, hb⟩

end Stencil
