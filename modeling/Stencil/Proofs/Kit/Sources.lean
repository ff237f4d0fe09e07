import Mathlib.Data.List.Forall2
import Stencil.PluginKit
import Stencil.Proofs.Template.Segments

/-!
# Kits and the texts that they are read from

A kit holds what its texts are read as, one pattern for each pair of texts, in order.

- **`ofSources_ok_iff`**: which kit the texts make.
- **`exists_ofSources_iff`**: texts make a kit exactly when all of them are template text.
- **`isRead_iff`**: what a kit was read from can be told from the kit.
- **`isRead_plugin`**: the bundled kit, though written down in segments, is what its own texts are read as.
-/

namespace Stencil

/-! ## One pattern -/

namespace FileSource

variable {s : FileSource} {p : FilePattern}

/-- The texts are read as the templates of the pattern. -/
def Reads (s : FileSource) (p : FilePattern) : Prop :=
  Template.parse s.path = .ok p.path ∧ Template.parse s.text = .ok p.text

/-- Both texts are template text. -/
def WellFormed (s : FileSource) : Prop := IsTemplate s.path.toList ∧ IsTemplate s.text.toList

theorem parse_ok_iff : s.parse = .ok p ↔ s.Reads p := by
  rw [parse, Reads]
  cases Template.parse s.path with
  | error m =>
    constructor
    · intro h
      cases h
    · rintro ⟨h, -⟩
      cases h
  | ok path =>
    cases Template.parse s.text with
    | error m =>
      constructor
      · intro h
        cases h
      · rintro ⟨-, h⟩
        cases h
    | ok text =>
      constructor
      · intro h
        cases h
        exact ⟨rfl, rfl⟩
      · rintro ⟨hpath, htext⟩
        cases hpath
        cases htext
        rfl

end FileSource

/-- Text is read exactly when it is template text. -/
theorem exists_parse_iff {s : String} : (∃ t, Template.parse s = .ok t) ↔ IsTemplate s.toList := by
  constructor
  · rintro ⟨t, h⟩
    obtain ⟨ts, hspells, -⟩ := parse_eq_ok_iff.mp h
    exact ⟨ts, hspells⟩
  · exact parse_of_isTemplate

theorem FileSource.exists_reads_iff {s : FileSource} : (∃ p, s.Reads p) ↔ s.WellFormed := by
  rw [WellFormed, ← exists_parse_iff, ← exists_parse_iff]
  constructor
  · rintro ⟨p, hpath, htext⟩
    exact ⟨⟨p.path, hpath⟩, p.text, htext⟩
  · rintro ⟨⟨path, hpath⟩, text, htext⟩
    exact ⟨⟨path, text⟩, hpath, htext⟩

/-! ## Kits -/

namespace Kit

variable {k k' : Kit} {s : FileSource} {sources : List FileSource}

theorem add_ok_iff : k.add s = .ok k' ↔ ∃ p, s.Reads p ∧ k' = ⟨k.patterns ++ [p]⟩ := by
  simp only [← FileSource.parse_ok_iff]
  rw [add]
  cases s.parse with
  | error m => simp
  | ok p => simp [eq_comm]

/-- Texts are added when all of them can be read, and what they are read as comes behind what was there. -/
theorem addAll_ok_iff : k.addAll sources = .ok k' ↔
    ∃ ps, List.Forall₂ FileSource.Reads sources ps ∧ k' = ⟨k.patterns ++ ps⟩ := by
  induction sources generalizing k with
  | nil => simp [addAll, eq_comm]
  | cons s rest ih =>
    constructor
    · intro h
      rw [addAll] at h
      split at h
      · cases h
      · next k₁ hadd =>
        obtain ⟨p, hp, rfl⟩ := add_ok_iff.mp hadd
        obtain ⟨ps, hps, rfl⟩ := ih.mp h
        exact ⟨p :: ps, .cons hp hps, by rw [List.append_assoc, List.singleton_append]⟩
    · rintro ⟨_, hall, rfl⟩
      obtain ⟨p, ps, hp, hps, rfl⟩ := List.forall₂_cons_left_iff.mp hall
      have hadd : k.add s = .ok ⟨k.patterns ++ [p]⟩ := add_ok_iff.mpr ⟨p, hp, rfl⟩
      simp only [addAll, hadd]
      exact ih.mpr ⟨ps, hps, by rw [List.append_assoc, List.singleton_append]⟩

/-- **Which kit texts make**: one pattern for each pair of texts, in order. -/
theorem ofSources_ok_iff : ofSources sources = .ok k ↔ List.Forall₂ FileSource.Reads sources k.patterns := by
  rw [ofSources, addAll_ok_iff]
  constructor
  · rintro ⟨ps, hps, rfl⟩
    exact hps
  · intro h
    exact ⟨k.patterns, h, rfl⟩

/-- **When texts make a kit**: all of them have to be template text. -/
theorem exists_ofSources_iff : (∃ k, ofSources sources = .ok k) ↔ ∀ s ∈ sources, s.WellFormed := by
  simp only [ofSources_ok_iff]
  induction sources with
  | nil => exact ⟨fun _ _ h => absurd h List.not_mem_nil, fun _ => ⟨.empty, .nil⟩⟩
  | cons s rest ih =>
    rw [List.forall_mem_cons, ← ih, ← FileSource.exists_reads_iff]
    constructor
    · rintro ⟨k, h⟩
      obtain ⟨p, ps, hp, hps, -⟩ := List.forall₂_cons_left_iff.mp h
      exact ⟨⟨p, hp⟩, ⟨ps⟩, hps⟩
    · rintro ⟨⟨p, hp⟩, k, hk⟩
      exact ⟨⟨p :: k.patterns⟩, .cons hp hk⟩

end Kit

/-! ## What is read back -/

namespace Segment

/-- The segment is text to copy, or a hole that has a proper name. -/
def Proper : Segment → Prop
  | .literal _ => True
  | .hole name => isName name.toList = true

instance : DecidablePred Proper
  | .literal _ => isTrue trivial
  | .hole name => inferInstanceAs (Decidable (isName name.toList = true))

end Segment

namespace Template

/-- The template is what its own source is read as. -/
def IsRead (t : Template) : Prop := Template.parse t.source = .ok t

theorem isRead_of_parse {s : String} {t : Template} (h : Template.parse s = .ok t) : t.IsRead := by
  obtain ⟨ts, hspells, rfl⟩ := parse_eq_ok_iff.mp h
  exact h

/-- What is put together from proper segments is what is read. -/
theorem isRead_ofSegments {segments : List Segment} (h : ∀ s ∈ segments, s.Proper) : (ofSegments segments).IsRead := by
  have hnames : ∀ name, .hole name ∈ segments → IsIdentifier name.toList :=
    fun name hname => (isName_iff _).mp (h _ hname)
  exact parse_of_spells ⟨Segment.wellFormed_tokens hnames, String.toList_ofList⟩

end Template

/-- Both templates are what their own sources are read as. -/
def FilePattern.IsRead (p : FilePattern) : Prop := p.path.IsRead ∧ p.text.IsRead

/-- The texts of both templates. -/
def FilePattern.source (p : FilePattern) : FileSource := ⟨p.path.source, p.text.source⟩

theorem FileSource.Reads.isRead {s : FileSource} {p : FilePattern} (h : s.Reads p) : p.IsRead :=
  ⟨Template.isRead_of_parse h.1, Template.isRead_of_parse h.2⟩

/-- Texts are read as the templates that have them as sources and are what their sources are read as. -/
theorem FileSource.reads_iff {s : FileSource} {p : FilePattern} : s.Reads p ↔ p.source = s ∧ p.IsRead := by
  constructor
  · intro h
    obtain ⟨_, -, hpath⟩ := parse_eq_ok_iff.mp h.1
    obtain ⟨_, -, htext⟩ := parse_eq_ok_iff.mp h.2
    refine ⟨?_, h.isRead⟩
    rw [FilePattern.source, hpath, htext]
  · rintro ⟨rfl, h⟩
    exact h

/-- So it is for lists of texts. -/
theorem FileSource.forall₂_reads_iff {sources : List FileSource} {ps : List FilePattern} :
    List.Forall₂ FileSource.Reads sources ps ↔ ps.map FilePattern.source = sources ∧ ∀ p ∈ ps, p.IsRead := by
  induction sources generalizing ps with
  | nil =>
    constructor
    · intro h
      cases h
      exact ⟨rfl, fun _ hp => absurd hp List.not_mem_nil⟩
    · rintro ⟨h, -⟩
      rw [List.map_eq_nil_iff.mp h]
      exact .nil
  | cons s rest ih =>
    cases ps with
    | nil =>
      constructor
      · intro h
        cases h
      · rintro ⟨h, -⟩
        cases h
    | cons p ps =>
      rw [List.forall₂_cons, reads_iff, ih, List.map_cons, List.cons.injEq, List.forall_mem_cons]
      exact and_and_and_comm

namespace Kit

/-- All templates are what their own sources are read as. -/
def IsRead (k : Kit) : Prop := ∀ p ∈ k.patterns, p.IsRead

variable {k k' : Kit} {s : FileSource} {sources : List FileSource}

theorem isRead_empty : Kit.empty.IsRead := fun _ h => absurd h List.not_mem_nil

theorem isRead_add (hk : k.IsRead) (h : k.add s = .ok k') : k'.IsRead := by
  obtain ⟨p, hp, rfl⟩ := add_ok_iff.mp h
  intro q hq
  rcases List.mem_append.mp hq with hq | hq
  · exact hk q hq
  · rw [List.mem_singleton.mp hq]
    exact hp.isRead

theorem isRead_addAll (hk : k.IsRead) (h : k.addAll sources = .ok k') : k'.IsRead := by
  induction sources generalizing k with
  | nil =>
    cases h
    exact hk
  | cons s rest ih =>
    rw [addAll] at h
    split at h
    · cases h
    · next k₁ hadd => exact ih (isRead_add hk hadd) h

/-- **Kits that are read** are those that texts make. -/
theorem isRead_iff : k.IsRead ↔ ∃ sources, ofSources sources = .ok k := by
  constructor
  · intro hk
    exact ⟨k.patterns.map FilePattern.source, ofSources_ok_iff.mpr (FileSource.forall₂_reads_iff.mpr ⟨rfl, hk⟩)⟩
  · rintro ⟨sources, h⟩
    exact isRead_addAll isRead_empty h

theorem proper_plugin : ∀ f ∈ PluginKit.files, (∀ s ∈ f.1, s.Proper) ∧ ∀ s ∈ f.2, s.Proper := by decide +kernel

/-- **The bundled kit** is what its own texts are read as. -/
theorem isRead_plugin : Kit.plugin.IsRead := by
  intro p hp
  obtain ⟨f, hf, rfl⟩ := List.mem_map.mp hp
  obtain ⟨hpath, htext⟩ := proper_plugin f hf
  exact ⟨Template.isRead_ofSegments hpath, Template.isRead_ofSegments htext⟩

end Kit
end Stencil
