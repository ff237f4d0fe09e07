import Mathlib.Data.List.Forall2
import Stencil.Proofs.Settings.Files

/-!
# Fields by name

In a mapping of a configuration two fields count, whether it is the configuration itself or one of its files. What is
decoded follows from the values of these two; the order of the fields and all other fields do not matter.

- **`TwoFields.iff`**: reading field by field comes down to the values of the two fields that count.
- **`decodeFileFields_ok_iff`**, **`decodeFields_ok_iff`**: which mappings are decoded, and as what.
-/

namespace Stencil
namespace Settings

open Yaml (Node Document Scalar)

variable {d : Document} {fields : List (Node × Node)} {name : String}

/-! ## Fields by name -/

/-- The values of the fields whose key is a scalar with the text. -/
def valuesOf (d : Document) (name : String) (fields : List (Node × Node)) : List Node :=
  fields.filterMap fun f =>
    match d.target f.1 with
    | .scalar s => if s.text = name then some f.2 else none
    | _ => none

/-- Every key is a scalar. -/
def HasScalarKeys (d : Document) (fields : List (Node × Node)) : Prop := ∀ f ∈ fields, ∃ text, HasText d f.1 text

/-- Every key is a scalar, and nothing is cut in the values of fields that do not count. -/
def IsReadable (d : Document) (known : List String) (fields : List (Node × Node)) : Prop :=
  ∀ f ∈ fields, ∃ text, HasText d f.1 text ∧ (text ∉ known → isWhole f.2 = true)

/-- The fields of a configuration that count. -/
def settingsFields : List String := ["output_root", "templates"]

/-- The fields of a file that count. -/
def fileFields : List String := ["path", "body"]

theorem valuesOf_cons {k v : Node} {text : String} (h : HasText d k text) :
    valuesOf d name ((k, v) :: fields) =
      if text = name then v :: valuesOf d name fields else valuesOf d name fields := by
  obtain ⟨s, hs, rfl⟩ := h
  rw [valuesOf, List.filterMap_cons, hs]
  by_cases hname : s.text = name
  · simp only [hname, if_true]
    rfl
  · simp only [hname, if_false]
    rfl

theorem valuesOf_append (fields fields' : List (Node × Node)) :
    valuesOf d name (fields ++ fields') = valuesOf d name fields ++ valuesOf d name fields' := List.filterMap_append

theorem isReadable_cons {known : List String} {k v : Node} :
    IsReadable d known ((k, v) :: fields) ↔
      ∃ text, HasText d k text ∧ (text ∉ known → isWhole v = true) ∧ IsReadable d known fields := by
  rw [IsReadable, List.forall_mem_cons]
  constructor
  · rintro ⟨⟨text, htext, hwhole⟩, hrest⟩
    exact ⟨text, htext, hwhole, hrest⟩
  · rintro ⟨text, htext, hwhole, hrest⟩
    exact ⟨⟨text, htext, hwhole⟩, hrest⟩

/-! ## A field that may be given once -/

/-- What a field is in the end that may be given once: what it was before, or what its only value is read as. -/
inductive Once {α : Type} (Reads : Node → α → Prop) : Option α → List Node → Option α → Prop
  | kept (given : Option α) : Once Reads given [] given
  | read {v : Node} {a : α} : Reads v a → Once Reads none [v] (some a)

section Once

variable {α : Type} {Reads : Node → α → Prop} {given result : Option α} {v : Node} {values values' : List Node}

theorem once_nil_iff : Once Reads given [] result ↔ result = given := by
  constructor
  · rintro ⟨⟩
    rfl
  · rintro rfl
    exact .kept _

theorem once_cons_iff :
    Once Reads given (v :: values) result ↔ given = none ∧ ∃ a, Reads v a ∧ Once Reads (some a) values result := by
  constructor
  · rintro (_ | hread)
    exact ⟨rfl, _, hread, .kept _⟩
  · rintro ⟨rfl, a, hread, hrest⟩
    cases hrest
    exact .read hread

theorem once_none_iff :
    Once Reads none values result ↔
      values = [] ∧ result = none ∨ ∃ v a, values = [v] ∧ Reads v a ∧ result = some a := by
  constructor
  · rintro (_ | hread)
    · exact .inl ⟨rfl, rfl⟩
    · exact .inr ⟨_, _, rfl, hread, rfl⟩
  · rintro (⟨rfl, rfl⟩ | ⟨v, a, rfl, hread, rfl⟩)
    · exact .kept none
    · exact .read hread

/-- The order of the values does not matter, as there is at most one. -/
theorem Once.of_perm (hperm : values.Perm values') (h : Once Reads given values result) :
    Once Reads given values' result := by
  cases h with
  | kept =>
    obtain rfl := List.nil_perm.mp hperm
    exact .kept given
  | read hread =>
    obtain rfl := List.singleton_perm.mp hperm
    exact .read hread

end Once

/-! ## Two fields that count -/

/-- Reading field by field, where `n₁` and `n₂` may be given once each and other fields are passed over. `Reads` tells
what is read of fields behind what was given before them, and `Ends` what comes out behind the last field. -/
structure TwoFields (d : Document) (n₁ n₂ : String) {α β : Type} (Reads₁ : Node → α → Prop) (Reads₂ : Node → β → Prop)
    (Reads : List (Node × Node) → Option α → Option β → Prop) (Ends : Option α → Option β → Prop) : Prop where
  nil : ∀ a b, Reads [] a b ↔ Ends a b
  cons : ∀ k v rest a b, Reads ((k, v) :: rest) a b ↔ ∃ name, HasText d k name ∧
    ((name = n₁ ∧ a = none ∧ ∃ x, Reads₁ v x ∧ Reads rest (some x) b) ∨
      (name = n₂ ∧ b = none ∧ ∃ y, Reads₂ v y ∧ Reads rest a (some y)) ∨
      (name ≠ n₁ ∧ name ≠ n₂ ∧ isWhole v = true ∧ Reads rest a b))

/-- **Two fields that count.** Nothing but their values decides what is read, once the fields are readable. -/
theorem TwoFields.iff {n₁ n₂ : String} {α β : Type} {Reads₁ : Node → α → Prop} {Reads₂ : Node → β → Prop}
    {Reads : List (Node × Node) → Option α → Option β → Prop} {Ends : Option α → Option β → Prop}
    (h : TwoFields d n₁ n₂ Reads₁ Reads₂ Reads Ends) (hne : n₁ ≠ n₂) {a : Option α} {b : Option β} :
    Reads fields a b ↔ IsReadable d [n₁, n₂] fields ∧
      ∃ a' b', Once Reads₁ a (valuesOf d n₁ fields) a' ∧ Once Reads₂ b (valuesOf d n₂ fields) b' ∧ Ends a' b' := by
  induction fields generalizing a b with
  | nil =>
    have hreadable : IsReadable d [n₁, n₂] [] := fun _ hf => absurd hf List.not_mem_nil
    have hnil : ∀ name, valuesOf d name [] = [] := fun _ => rfl
    rw [h.nil, hnil, hnil]
    simp only [once_nil_iff]
    constructor
    · intro hends
      exact ⟨hreadable, a, b, rfl, rfl, hends⟩
    · rintro ⟨-, _, _, rfl, rfl, hends⟩
      exact hends
  | cons field rest ih =>
    obtain ⟨k, v⟩ := field
    rw [h.cons, isReadable_cons]
    simp only [ih]
    constructor
    · rintro ⟨name, hname, hcases⟩
      rw [valuesOf_cons hname, valuesOf_cons hname]
      rcases hcases with ⟨rfl, ha, x, hx, hrest, a', b', hfirst, hsecond, hends⟩ |
        ⟨rfl, hb, y, hy, hrest, a', b', hfirst, hsecond, hends⟩ |
        ⟨hn₁, hn₂, hwhole, hrest, a', b', hfirst, hsecond, hends⟩
      · rw [if_pos rfl, if_neg hne]
        have hfirst := once_cons_iff.mpr ⟨ha, x, hx, hfirst⟩
        refine ⟨⟨name, hname, fun hother => absurd ?_ hother, hrest⟩, a', b', hfirst, hsecond, hends⟩
        exact List.mem_cons_self
      · rw [if_neg hne.symm, if_pos rfl]
        have hsecond := once_cons_iff.mpr ⟨hb, y, hy, hsecond⟩
        refine ⟨⟨name, hname, fun hother => absurd ?_ hother, hrest⟩, a', b', hfirst, hsecond, hends⟩
        exact List.mem_cons_of_mem _ List.mem_cons_self
      · rw [if_neg hn₁, if_neg hn₂]
        exact ⟨⟨name, hname, fun _ => hwhole, hrest⟩, a', b', hfirst, hsecond, hends⟩
    · rintro ⟨⟨name, hname, hwhole, hrest⟩, a', b', hfirst, hsecond, hends⟩
      refine ⟨name, hname, ?_⟩
      rw [valuesOf_cons hname] at hfirst hsecond
      by_cases hn₁ : name = n₁
      · rw [if_pos hn₁] at hfirst
        rw [if_neg (hn₁.trans_ne hne)] at hsecond
        obtain ⟨ha, x, hx, hfirst⟩ := once_cons_iff.mp hfirst
        exact .inl ⟨hn₁, ha, x, hx, hrest, a', b', hfirst, hsecond, hends⟩
      · rw [if_neg hn₁] at hfirst
        by_cases hn₂ : name = n₂
        · rw [if_pos hn₂] at hsecond
          obtain ⟨hb, y, hy, hsecond⟩ := once_cons_iff.mp hsecond
          exact .inr (.inl ⟨hn₂, hb, y, hy, hrest, a', b', hfirst, hsecond, hends⟩)
        · rw [if_neg hn₂] at hsecond
          have hother : name ∉ [n₁, n₂] := by simp [hn₁, hn₂]
          exact .inr (.inr ⟨hn₁, hn₂, hwhole hother, hrest, a', b', hfirst, hsecond, hends⟩)

/-! ## Files -/

theorem twoFields_file (f : FileSource) :
    TwoFields d "path" "body" (HasText d) (HasText d)
      (fun fields path text => decodeFileFields d fields path text = .ok f)
      (fun path text => path = some f.path ∧ text = some f.text) where
  nil path text := by
    obtain ⟨fpath, ftext⟩ := f
    cases path <;> cases text <;> simp [decodeFileFields]
  cons k v rest path text := by
    simp only [← decodeText_ok_iff]
    rw [decodeFileFields]
    cases decodeText d k with
    | error e => simp
    | ok name =>
      simp only [Except.ok.injEq, exists_eq_left']
      by_cases hpath : name = "path"
      · subst hpath
        cases path with
        | some p => simp [refuseTwice]
        | none => cases decodeText d v <;> simp [refuseTwice]
      · by_cases hbody : name = "body"
        · subst hbody
          cases text with
          | some t => simp [refuseTwice]
          | none => cases decodeText d v <;> simp [refuseTwice]
        · cases isWhole v <;> simp [hpath, hbody]

/-- **The fields of a file** are decoded exactly if they are readable and give both texts once. -/
theorem decodeFileFields_ok_iff {f : FileSource} :
    decodeFileFields d fields none none = .ok f ↔ IsReadable d fileFields fields ∧
      Once (HasText d) none (valuesOf d "path" fields) (some f.path) ∧
      Once (HasText d) none (valuesOf d "body" fields) (some f.text) := by
  rw [(twoFields_file f).iff (by decide)]
  constructor
  · rintro ⟨hreadable, _, _, hpath, htext, rfl, rfl⟩
    exact ⟨hreadable, hpath, htext⟩
  · rintro ⟨hreadable, hpath, htext⟩
    exact ⟨hreadable, _, _, hpath, htext, rfl, rfl⟩

theorem decodeFile_ok_iff {n : Node} {f : FileSource} :
    decodeFile d n = .ok f ↔ ∃ fields, d.target n = .mapping fields ∧ decodeFileFields d fields none none = .ok f := by
  unfold decodeFile
  split
  · next fields htarget => simp [htarget]
  · next s htarget =>
    rw [htarget]
    constructor
    · intro h
      split at h <;> cases h
    · rintro ⟨_, hmapping, -⟩
      cases hmapping
  · next hmapping _ =>
    constructor
    · intro h
      cases h
    · rintro ⟨fields, htarget, -⟩
      exact absurd htarget (hmapping fields)

theorem decodeFiles_ok_iff {items : List Node} {files : List FileSource} :
    decodeFiles d items = .ok files ↔ List.Forall₂ (fun n f => decodeFile d n = .ok f) items files := by
  induction items generalizing files with
  | nil => simp [decodeFiles, eq_comm]
  | cons n rest ih =>
    rw [decodeFiles, List.forall₂_cons_left_iff]
    cases decodeFile d n with
    | error e => simp
    | ok f =>
      simp only [Except.ok.injEq, exists_and_left, exists_eq_left', ← ih]
      cases decodeFiles d rest <;> simp [eq_comm]

/-- What stands for the files: a sequence of them or, without a tag, what is written for the absence of a value. -/
theorem decodeTemplates_ok_iff {n : Node} {own : Option (List FileSource)}
    (htag : ∀ s, d.target n = .scalar s → s.tag = none) :
    decodeTemplates d n = .ok own ↔ HasNull d n ∧ own = none ∨
      ∃ items files, d.target n = .sequence items ∧ decodeFiles d items = .ok files ∧ own = some files := by
  cases own with
  | none => simp [decodeTemplates_eq_none_iff]
  | some files =>
    simp only [reduceCtorEq, and_false, false_or, Option.some.injEq, exists_eq_right_right']
    unfold decodeTemplates
    split
    · next items htarget =>
      simp only [htarget, Node.sequence.injEq, exists_eq_left']
      cases decodeFiles d items <;> simp
    · next s htarget =>
      -- what is not written for absence and has no tag is not blank
      have hblank : decodeNull s = .ok false → isBlank s = false := by
        simp only [decodeNull, htag s htarget, isBlank]
        cases s.isPlain <;> simp +contextual
      rw [htarget]
      cases hnull : decodeNull s with
      | error e => simp
      | ok b =>
        cases b with
        | true => simp
        | false => simp [hblank hnull]
    · next hsequence _ =>
      simp only [reduceCtorEq, false_iff]
      rintro ⟨items, htarget, -⟩
      exact hsequence items htarget

/-! ## Settings -/

theorem twoFields_settings (s : Settings) :
    TwoFields d "output_root" "templates" (fun v (root : Path) => HasText d v root.text)
      (fun v own => decodeTemplates d v = .ok own) (fun fields root files => decodeFields d fields root files = .ok s)
      (fun root files => s = ⟨root.getD defaultRoot, files.join⟩) where
  nil root files := by simp [decodeFields, eq_comm]
  cons k v rest root files := by
    rw [decodeFields_cons_ok_iff]
    refine exists_congr fun name => and_congr_right fun _ => or_congr_left ?_
    refine and_congr_right fun _ => and_congr_right fun _ => ?_
    constructor
    · rintro ⟨text, htext, hrest⟩
      exact ⟨⟨text⟩, htext, hrest⟩
    · rintro ⟨root, htext, hrest⟩
      exact ⟨root.text, htext, hrest⟩

/-- **The fields of a configuration** are decoded exactly if they are readable and give root and files once at most. -/
theorem decodeFields_ok_iff {s : Settings} :
    decodeFields d fields none none = .ok s ↔ IsReadable d settingsFields fields ∧ ∃ root files,
      Once (fun v (root : Path) => HasText d v root.text) none (valuesOf d "output_root" fields) root ∧
      Once (fun v own => decodeTemplates d v = .ok own) none (valuesOf d "templates" fields) files ∧
      s = ⟨root.getD defaultRoot, files.join⟩ :=
  (twoFields_settings s).iff (by decide)

theorem decodeRoot_of_mapping (h : d.target d.root = .mapping fields) :
    decodeRoot d = decodeFields d fields none none := by
  rw [decodeRoot, h]

theorem ofDocument_ok_iff {s : Settings} : ofDocument d = .ok s ↔ d.isSound = true ∧ decodeRoot d = .ok s := by
  rw [ofDocument]
  cases decodeRoot d with
  | error e => simp
  | ok s' => cases d.isSound <;> simp

end Settings
end Stencil
