import Stencil.Settings.Load

/-!
# The files of settings

Settings have files of their own unless the field for them is missing or null. Fields are decoded one after another, so
this follows from what one field adds (`decodeFields_cons_ok_iff`).

- **`files_eq_none_iff`**: when settings that are decoded from YAML text have no files of their own.
- **`load_ok_iff`**: which settings a file holds.
-/

namespace Stencil

theorem Workspace.read_ok_iff {w : Workspace} {p : Path} {content : ByteArray} :
    w.read p = .ok content ↔ ∃ l, w.find p = .ok (l, .file content) := by
  unfold Workspace.read
  split
  · next h => simp [h]
  · next h => simp [h]
  · next h => simp [h]

namespace Settings

open Yaml (Node Document Scalar)

variable {d : Document}

/-! ## Null -/

/-- The words for the absence of a value. -/
def nullWords : List String := ["null", "Null", "NULL", "~"]

/-- The scalar is what is written for the absence of a value: it is plain, and empty or one of four words. Tagged as the
absence of a value it has to be one of the words. -/
def WritesNull (s : Scalar) : Prop :=
  s.isPlain = true ∧
    (s.tag = none ∧ (s.text = "" ∨ s.text ∈ nullWords) ∨ s.tag = some nullTag ∧ s.text ∈ nullWords)

/-- The node is a scalar with the text. -/
def HasText (d : Document) (n : Node) (text : String) : Prop := ∃ s, d.target n = .scalar s ∧ s.text = text

/-- The node stands for the absence of a value. -/
def HasNull (d : Document) (n : Node) : Prop := ∃ s, d.target n = .scalar s ∧ WritesNull s

theorem isNull_iff {text : String} : isNull text = true ↔ text ∈ nullWords := by
  simp [isNull, nullWords, or_assoc]

theorem decodeNull_eq_true_iff {s : Scalar} : decodeNull s = .ok true ↔ WritesNull s := by
  rw [WritesNull, ← isNull_iff, decodeNull]
  cases s.isPlain with
  | false => simp
  | true =>
    cases s.tag with
    | none => simp
    | some tag =>
      by_cases htag : tag = nullTag
      · cases isNull s.text <;> simp [htag]
      · simp [htag]

theorem decodeText_ok_iff {n : Node} {text : String} : decodeText d n = .ok text ↔ HasText d n text := by
  unfold HasText decodeText
  split
  · next s htarget => simp [htarget]
  · next hother =>
    constructor
    · intro h
      cases h
    · rintro ⟨s, hs, -⟩
      exact absurd hs (hother s)

theorem decodeTemplates_eq_none_iff {n : Node} : decodeTemplates d n = .ok none ↔ HasNull d n := by
  unfold HasNull decodeTemplates
  simp only [← decodeNull_eq_true_iff]
  split
  · next items htarget =>
    rw [htarget]
    constructor
    · intro h
      split at h <;> cases h
    · rintro ⟨s, hs, -⟩
      cases hs
  · next s htarget =>
    simp only [htarget, Node.scalar.injEq, exists_eq_left']
    split
    · next h => simp [h]
    · next h => simp [h]
    · next h =>
      rw [h]
      split <;> simp
  · next hother =>
    constructor
    · intro h
      cases h
    · rintro ⟨s, hs, -⟩
      exact absurd hs (hother s)

/-! ## Fields -/

/-- What one more field needs and gives. -/
theorem decodeFields_cons_ok_iff {k v : Node} {rest : List (Node × Node)} {root : Option Path}
    {files : Option (Option (List FileSource))} {s : Settings} :
    decodeFields d ((k, v) :: rest) root files = .ok s ↔
      ∃ name, HasText d k name ∧
        ((name = "output_root" ∧ root = none ∧
            ∃ text, HasText d v text ∧ decodeFields d rest (some ⟨text⟩) files = .ok s) ∨
          (name = "templates" ∧ files = none ∧
            ∃ own, decodeTemplates d v = .ok own ∧ decodeFields d rest root (some own) = .ok s) ∨
          (name ≠ "output_root" ∧ name ≠ "templates" ∧ isWhole v = true ∧ decodeFields d rest root files = .ok s)) := by
  simp only [← decodeText_ok_iff]
  rw [decodeFields]
  cases decodeText d k with
  | error f => simp
  | ok name =>
    simp only [Except.ok.injEq, exists_eq_left']
    by_cases hroot : name = "output_root"
    · subst hroot
      cases root with
      | some path => simp [refuseTwice]
      | none => cases decodeText d v <;> simp [refuseTwice]
    · by_cases hfiles : name = "templates"
      · subst hfiles
        cases files with
        | some own => simp [refuseTwice]
        | none => cases decodeTemplates d v <;> simp [refuseTwice]
      · cases isWhole v <;> simp [hroot, hfiles]

/-- The field for the files is missing or null. -/
def LacksFiles (d : Document) (fields : List (Node × Node)) : Prop :=
  ∀ k v, (k, v) ∈ fields → HasText d k "templates" → HasNull d v

theorem hasText_unique {n : Node} {text text' : String} (h : HasText d n text) (h' : HasText d n text') :
    text = text' := by
  obtain ⟨s, hs, rfl⟩ := h
  obtain ⟨s', hs', rfl⟩ := h'
  rw [hs] at hs'
  cases hs'
  rfl

theorem lacksFiles_cons_iff {k v : Node} {rest : List (Node × Node)} {name : String} (h : HasText d k name) :
    LacksFiles d ((k, v) :: rest) ↔ (name = "templates" → HasNull d v) ∧ LacksFiles d rest := by
  constructor
  · intro hall
    refine ⟨fun e => hall k v List.mem_cons_self (e ▸ h), fun k' v' hmem => hall k' v' (List.mem_cons_of_mem _ hmem)⟩
  · rintro ⟨hfirst, hrest⟩ k' v' hmem hkey
    rcases List.mem_cons.mp hmem with e | hmem
    · obtain ⟨rfl, rfl⟩ := Prod.mk.inj e
      exact hfirst (hasText_unique h hkey)
    · exact hrest k' v' hmem hkey

/-- There are no files when none were given before the fields and none are given in them. -/
theorem files_of_decodeFields {fields : List (Node × Node)} {root : Option Path}
    {files : Option (Option (List FileSource))} {s : Settings} (h : decodeFields d fields root files = .ok s) :
    s.files = none ↔ files.join = none ∧ LacksFiles d fields := by
  induction fields generalizing root files with
  | nil =>
    cases h
    exact ⟨fun h => ⟨h, fun _ _ hmem => absurd hmem List.not_mem_nil⟩, And.left⟩
  | cons field rest ih =>
    obtain ⟨k, v⟩ := field
    obtain ⟨name, hname, hcases⟩ := decodeFields_cons_ok_iff.mp h
    rw [lacksFiles_cons_iff hname]
    rcases hcases with ⟨rfl, -, text, -, hrest⟩ | ⟨rfl, rfl, own, hown, hrest⟩ | ⟨-, hother, -, hrest⟩
    · rw [ih hrest]
      simp
    · rw [ih hrest, ← decodeTemplates_eq_none_iff, hown]
      simp
    · rw [ih hrest]
      simp [hother]

/-- The document gives no files: it has no fields, or the one for the files is missing or null. -/
def GivesNoFiles (d : Document) : Prop := ∀ fields, d.target d.root = .mapping fields → LacksFiles d fields

theorem files_of_decodeRoot {s : Settings} (h : decodeRoot d = .ok s) : s.files = none ↔ GivesNoFiles d := by
  unfold GivesNoFiles
  unfold decodeRoot at h
  split at h
  · next fields hroot =>
    rw [files_of_decodeFields h, hroot]
    simp
  · next scalar hroot =>
    split at h
    · cases h
      refine ⟨fun _ fields hfields => ?_, fun _ => rfl⟩
      rw [hroot] at hfields
      cases hfields
    · cases h
  · cases h

/-- **When settings have no files of their own.** -/
theorem files_eq_none_iff {text : String} {s : Settings} (h : ofYaml text = .ok s) :
    s.files = none ↔ GivesNoFiles (Document.read text) := by
  apply files_of_decodeRoot
  unfold ofYaml ofDocument at h
  split at h
  · cases h
  · next s' hroot =>
    split at h
    · rw [← Except.ok.inj h]
      exact hroot
    · cases h

/-! ## Loading -/

theorem parse_ok_iff {text : String} {s : Settings} : Settings.parse text = .ok s ↔ ofYaml text = .ok s := by
  rw [Settings.parse]
  cases ofYaml text <;> simp

theorem fromUTF8?_eq_some_iff {content : ByteArray} {text : String} :
    String.fromUTF8? content = some text ↔ content = text.toUTF8 := by
  unfold String.fromUTF8?
  constructor
  · intro h
    split at h
    · cases h
      rfl
    · cases h
  · rintro rfl
    exact dif_pos text.isValidUTF8

theorem ofBytes_ok_iff {content : ByteArray} {s : Settings} :
    ofBytes content = .ok s ↔ ∃ text : String, content = text.toUTF8 ∧ ofYaml text = .ok s := by
  simp only [← parse_ok_iff, ← fromUTF8?_eq_some_iff]
  rw [ofBytes]
  cases String.fromUTF8? content <;> simp

/-- **Which settings a file holds**: those of the YAML text whose UTF-8 bytes it holds. -/
theorem load_ok_iff {w : Workspace} {p : Path} {s : Settings} :
    load w p = .ok s ↔ ∃ l text, w.find p = .ok (l, .file text.toUTF8) ∧ ofYaml text = .ok s := by
  have hread : load w p = .ok s ↔ ∃ content, w.read p = .ok content ∧ ofBytes content = .ok s := by
    rw [load]
    cases w.read p <;> simp
  simp only [hread, Workspace.read_ok_iff, ofBytes_ok_iff]
  constructor
  · rintro ⟨_, ⟨l, hfind⟩, text, rfl, hs⟩
    exact ⟨l, text, hfind, hs⟩
  · rintro ⟨l, text, hfind, hs⟩
    exact ⟨_, ⟨l, hfind⟩, text, rfl, hs⟩

end Settings
end Stencil
