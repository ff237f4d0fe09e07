import Stencil.Proofs.Kit.Sources
import Stencil.Session

/-!
# Kits put together text by text

Texts are added to a kit in two ways: all at once, where the first text that is no template ends it, and request by
request in a session that goes on after a refusal. Either way a pair of texts makes a pattern or leaves no trace.

- **`addAll_error_iff`**: all at once, what is wrong with the first text that is no template.
- **`run_add`**: request by request, the pairs of template texts make patterns and the others are refused.
- **`kit_of_texts`**: both ways together.
-/

namespace Stencil

/-! ## The first text that is no template -/

/-- What is wrong with a text, unless it is a template. -/
def Template.flaw? (s : String) : Option Malformed :=
  match Template.parse s with
  | .error m => some m
  | .ok _ => none

theorem Template.flaw?_eq_none_iff {s : String} : flaw? s = none ↔ ∃ t, Template.parse s = .ok t := by
  rw [flaw?]
  cases Template.parse s <;> simp

namespace FileSource

variable {s : FileSource} {m : Malformed}

/-- The two texts in the order in which they are read. -/
def texts (s : FileSource) : List String := [s.path, s.text]

/-- What is wrong with the first of the texts that is no template. -/
def flaw? (s : FileSource) : Option Malformed := s.texts.findSome? Template.flaw?

theorem parse_error_iff : s.parse = .error m ↔ s.flaw? = some m := by
  simp only [parse, flaw?, texts, List.findSome?_cons, List.findSome?_nil, Template.flaw?]
  cases Template.parse s.path with
  | error m' => simp
  | ok path => cases Template.parse s.text <;> simp

theorem flaw?_eq_none_iff : s.flaw? = none ↔ s.WellFormed := by
  rw [flaw?, List.findSome?_eq_none_iff, texts, WellFormed, ← exists_parse_iff, ← exists_parse_iff]
  simp only [List.forall_mem_cons, Template.flaw?_eq_none_iff, List.not_mem_nil, false_imp_iff, implies_true, and_true]

instance : DecidablePred WellFormed := fun s => decidable_of_iff (s.flaw? = none) flaw?_eq_none_iff

end FileSource

/-! ## All at once -/

namespace Kit

variable {k : Kit} {s : FileSource} {sources : List FileSource} {m : Malformed}

theorem add_error_iff : k.add s = .error m ↔ s.flaw? = some m := by
  rw [← FileSource.parse_error_iff, add]
  cases s.parse <;> simp

/-- **The first flaw** ends adding, whatever the kit held before it. -/
theorem addAll_error_iff :
    k.addAll sources = .error m ↔ (sources.flatMap FileSource.texts).findSome? Template.flaw? = some m := by
  induction sources generalizing k with
  | nil => simp [addAll]
  | cons s rest ih =>
    rw [List.flatMap_cons, List.findSome?_append, addAll]
    cases hadd : k.add s with
    | error m' =>
      have hflaw : s.texts.findSome? Template.flaw? = some m' := add_error_iff.mp hadd
      rw [hflaw, Option.some_or]
      simp
    | ok k' =>
      have hflaw : s.texts.findSome? Template.flaw? = none := by
        cases h : s.texts.findSome? Template.flaw? with
        | none => rfl
        | some m' => cases hadd.symm.trans (add_error_iff.mpr h)
      rw [hflaw, Option.none_or]
      exact ih

end Kit

/-- Settings with files of their own give the kit of these files. -/
theorem requireKit_of_files (root : Path) (sources : List FileSource) :
    (Settings.mk root (some sources)).requireKit = (Kit.ofSources sources).mapError .malformed := by
  simp only [Settings.requireKit, Settings.kit]
  cases Kit.ofSources sources <;> rfl

/-! ## Request by request -/

namespace Session

/-- The request is answered unless one of the texts is no template; then it is refused for the first of them. -/
def AnswersAdd (source : FileSource) (reply : Reply) : Prop :=
  ∀ e, reply.answer = .error e ↔ ∃ m, source.flaw? = some m ∧ e = .failure (.malformed m)

/-- One more pair of texts: a pattern behind the others, or nothing. -/
theorem step_add (s : Session) (source : FileSource) :
    AnswersAdd source (s.step (.add source)).2 ∧
      (source.WellFormed ∧
          (∃ p, source.Reads p ∧ (s.step (.add source)).1 = { s with kit := ⟨s.kit.patterns ++ [p]⟩ }) ∨
        ¬ source.WellFormed ∧ (s.step (.add source)).1 = s) := by
  rw [step, AnswersAdd]
  cases hadd : s.kit.add source with
  | error m =>
    have hflaw := Kit.add_error_iff.mp hadd
    have hnot : ¬ source.WellFormed := by
      rw [← FileSource.flaw?_eq_none_iff, hflaw]
      exact Option.some_ne_none m
    refine ⟨fun e => ?_, .inr ⟨hnot, rfl⟩⟩
    simp [refuse, hflaw, eq_comm]
  | ok k =>
    obtain ⟨p, hp, rfl⟩ := Kit.add_ok_iff.mp hadd
    have hwell := FileSource.exists_reads_iff.mp ⟨p, hp⟩
    refine ⟨fun e => ?_, .inl ⟨hwell, p, hp, rfl⟩⟩
    simp [reply, FileSource.flaw?_eq_none_iff.mpr hwell]

/-- **Request by request.** The pairs of template texts make patterns, in order and behind those that were there;
nothing else changes, and the other pairs are refused. -/
theorem run_add (s : Session) (sources : List FileSource) : ∃ added,
    (s.run (sources.map .add)).1 = { s with kit := ⟨s.kit.patterns ++ added⟩ } ∧
      List.Forall₂ FileSource.Reads (sources.filter (·.WellFormed)) added ∧
      List.Forall₂ AnswersAdd sources (s.run (sources.map .add)).2 := by
  induction sources generalizing s with
  | nil => exact ⟨[], by rw [List.append_nil]; rfl, .nil, .nil⟩
  | cons source rest ih =>
    obtain ⟨hanswer, hstep⟩ := s.step_add source
    obtain ⟨added, hrun, hadded, hreplies⟩ := ih (s.step (.add source)).1
    rcases hstep with ⟨hwell, p, hp, hs⟩ | ⟨hnot, hs⟩
    · refine ⟨p :: added, ?_, ?_, .cons hanswer hreplies⟩
      · refine hrun.trans ?_
        rw [hs]
        simp
      · rw [List.filter_cons_of_pos (by simpa using hwell)]
        exact .cons hp hadded
    · refine ⟨added, ?_, ?_, .cons hanswer hreplies⟩
      · refine hrun.trans ?_
        rw [hs]
      · rwa [List.filter_cons_of_neg (by simpa using hnot)]

end Session

/-- **Kits of texts.** Settings with files of their own give a kit exactly if all texts in them are templates. The kit
then has these texts as the sources of its templates, pattern by pattern, and each template is what its source is read
as. Otherwise the settings give what is wrong with the first text that is no template, the path of a file before its
text. In a session files may be added one by one, whatever is refused. Then the kit grows by those files whose texts
both are templates, in order; nothing else changes; and a file is refused for the first of its texts that is no
template. -/
theorem kit_of_texts (sources : List FileSource) :
    (∀ root, let settings : Settings := ⟨root, some sources⟩
      ((∃ k, settings.requireKit = .ok k) ↔ ∀ s ∈ sources, s.WellFormed) ∧
      (∀ k, settings.requireKit = .ok k ↔ k.patterns.map FilePattern.source = sources ∧ k.IsRead) ∧
      ∀ e, settings.requireKit = .error e ↔
        ∃ m, (sources.flatMap FileSource.texts).findSome? Template.flaw? = some m ∧ e = .malformed m) ∧
    ∀ s : Session, let r := s.run (sources.map .add)
      (∃ added, r.1 = { s with kit := ⟨s.kit.patterns ++ added⟩ } ∧
        added.map FilePattern.source = sources.filter (·.WellFormed) ∧ ∀ p ∈ added, p.IsRead) ∧
      List.Forall₂ (fun source reply => ∀ e, reply.answer = .error e ↔
        ∃ m, source.texts.findSome? Template.flaw? = some m ∧ e = .failure (.malformed m)) sources r.2 := by
  refine ⟨?_, fun s => ?_⟩
  · intro root settings
    have hkit : settings.requireKit = (Kit.ofSources sources).mapError .malformed := requireKit_of_files root sources
    have hok : ∀ k, settings.requireKit = .ok k ↔ Kit.ofSources sources = .ok k := by
      intro k
      rw [hkit]
      cases Kit.ofSources sources <;> simp [Except.mapError]
    have herror : ∀ e, settings.requireKit = .error e ↔ ∃ m, Kit.ofSources sources = .error m ∧ e = .malformed m := by
      intro e
      rw [hkit]
      cases Kit.ofSources sources <;> simp [Except.mapError, eq_comm]
    refine ⟨?_, fun k => ?_, fun e => ?_⟩
    · simp only [hok]
      exact Kit.exists_ofSources_iff
    · rw [hok, Kit.ofSources_ok_iff]
      exact FileSource.forall₂_reads_iff
    · rw [herror]
      simp only [← Kit.addAll_error_iff (k := .empty)]
      rfl
  · obtain ⟨added, hrun, hadded, hreplies⟩ := s.run_add sources
    exact ⟨⟨added, hrun, FileSource.forall₂_reads_iff.mp hadded⟩, hreplies⟩

end Stencil
