import Mathlib.Logic.Relation
import Stencil.Proofs.Settings.Fields
import Stencil.Proofs.Yaml.Tree

/-!
# The schema of settings

Which documents hold settings can be told by a schema: what may stand in the fields that count, and how often. Changes
to the order of the fields and to the fields that do not count leave the settings alone.

- **`decodeFields_of_edits`**: changes to the fields that leave alone what is decoded.
- **`decoded_by_schema`**: the schema.
-/

namespace Stencil

open Yaml (Node Document Scalar)

namespace Settings

variable {d : Document} {fields fields' : List (Node × Node)} {name : String}

/-! ## Whole nodes -/

theorem areWhole_iff {items : List Node} : areWhole items = true ↔ ∀ n ∈ items, isWhole n = true := by
  induction items with
  | nil => simp [areWhole]
  | cons n rest ih => simp [areWhole, ih]

theorem areWholePairs_iff :
    areWholePairs fields = true ↔ ∀ f ∈ fields, isWhole f.1 = true ∧ isWhole f.2 = true := by
  induction fields with
  | nil => simp [areWholePairs]
  | cons f rest ih =>
    obtain ⟨k, v⟩ := f
    simp [areWholePairs, ih]

theorem isWhole_of_isBare {n : Node} (h : n.IsBare) : isWhole n = true := by
  induction h with
  | scalar _ => rfl
  | sequence _ ih => exact areWhole_iff.mpr ih
  | mapping _ _ ihkeys ihvalues => exact areWholePairs_iff.mpr fun f hf => ⟨ihkeys f hf, ihvalues f hf⟩

/-! ## Changes to the fields -/

/-- A change to the fields of a mapping: another order, or one more field that does not count. -/
inductive Edit (d : Document) (known : List String) : List (Node × Node) → List (Node × Node) → Prop
  | reorder {fields fields' : List (Node × Node)} : fields.Perm fields' → Edit d known fields fields'
  | insert (before after : List (Node × Node)) {key value : Node} {name : String} :
    HasText d key name → name ∉ known → isWhole value = true →
    Edit d known (before ++ after) (before ++ (key, value) :: after)

/-- A change to the fields of a configuration, or to those of one of its files. -/
inductive SettingsEdit (d : Document) : List (Node × Node) → List (Node × Node) → Prop
  | fields {fields fields' : List (Node × Node)} : Edit d settingsFields fields fields' → SettingsEdit d fields fields'
  | file (before after : List (Node × Node)) {key : Node} (filesBefore filesAfter : List Node)
    {file file' : List (Node × Node)} : HasText d key "templates" → Edit d fileFields file file' →
    SettingsEdit d (before ++ (key, .sequence (filesBefore ++ .mapping file :: filesAfter)) :: after)
      (before ++ (key, .sequence (filesBefore ++ .mapping file' :: filesAfter)) :: after)

section Edit

variable {known : List String}

theorem Edit.valuesOf_perm (h : Edit d known fields fields') (hname : name ∈ known) :
    (valuesOf d name fields).Perm (valuesOf d name fields') := by
  cases h with
  | reorder hperm => exact hperm.filterMap _
  | insert before after hkey hother _ =>
    rw [valuesOf_append, valuesOf_append, valuesOf_cons hkey, if_neg]
    rintro rfl
    exact hother hname

theorem Edit.isReadable_iff (h : Edit d known fields fields') :
    IsReadable d known fields ↔ IsReadable d known fields' := by
  cases h with
  | reorder hperm => exact forall_congr' fun f => imp_congr_left hperm.mem_iff
  | insert before after hkey _ hwhole =>
    simp only [IsReadable, List.forall_mem_append, List.forall_mem_cons]
    refine and_congr_right fun _ => ⟨fun hafter => ⟨⟨_, hkey, fun _ => hwhole⟩, hafter⟩, And.right⟩

theorem Edit.once_iff {α : Type} {Reads : Node → α → Prop} {given result : Option α} (h : Edit d known fields fields')
    (hname : name ∈ known) :
    Once Reads given (valuesOf d name fields) result ↔ Once Reads given (valuesOf d name fields') result :=
  ⟨.of_perm (h.valuesOf_perm hname), .of_perm (h.valuesOf_perm hname).symm⟩

theorem decodeFileFields_of_edit (h : Edit d fileFields fields fields') (f : FileSource) :
    decodeFileFields d fields none none = .ok f ↔ decodeFileFields d fields' none none = .ok f := by
  rw [decodeFileFields_ok_iff, decodeFileFields_ok_iff, h.isReadable_iff, h.once_iff (by decide),
    h.once_iff (by decide)]

theorem decodeFields_of_edit (h : Edit d settingsFields fields fields') (s : Settings) :
    decodeFields d fields none none = .ok s ↔ decodeFields d fields' none none = .ok s := by
  rw [decodeFields_ok_iff, decodeFields_ok_iff, h.isReadable_iff]
  refine and_congr_right fun _ => exists_congr fun root => exists_congr fun files => ?_
  rw [h.once_iff (by decide), h.once_iff (by decide)]

/-- Files are decoded the same if one of them is exchanged for another that is. -/
theorem decodeFiles_of_item {n n' : Node} (h : ∀ f, decodeFile d n = .ok f ↔ decodeFile d n' = .ok f)
    (before after : List Node) (files : List FileSource) :
    decodeFiles d (before ++ n :: after) = .ok files ↔ decodeFiles d (before ++ n' :: after) = .ok files := by
  rw [decodeFiles_ok_iff, decodeFiles_ok_iff]
  induction before generalizing files with
  | nil => simp only [List.nil_append, List.forall₂_cons_left_iff, h]
  | cons m before ih => simp only [List.cons_append, List.forall₂_cons_left_iff, ih]

theorem decodeTemplates_of_items {items items' : List Node}
    (h : ∀ files, decodeFiles d items = .ok files ↔ decodeFiles d items' = .ok files) (own : Option (List FileSource)) :
    decodeTemplates d (.sequence items) = .ok own ↔ decodeTemplates d (.sequence items') = .ok own := by
  simp only [decodeTemplates, Document.target]
  cases hitems : decodeFiles d items with
  | ok files => rw [(h files).mp hitems]
  | error e =>
    cases hitems' : decodeFiles d items' with
    | ok files => cases ((h files).mpr hitems').symm.trans hitems
    | error e' => simp

/-- Fields are decoded the same if what stands for the files is exchanged for something that is. -/
theorem decodeFields_of_templates {key v v' : Node} (hkey : HasText d key "templates")
    (h : ∀ own, decodeTemplates d v = .ok own ↔ decodeTemplates d v' = .ok own) (before after : List (Node × Node))
    (s : Settings) (root : Option Path) (files : Option (Option (List FileSource))) :
    decodeFields d (before ++ (key, v) :: after) root files = .ok s ↔
      decodeFields d (before ++ (key, v') :: after) root files = .ok s := by
  induction before generalizing root files with
  | nil =>
    rw [List.nil_append, List.nil_append, decodeFields_cons_ok_iff, decodeFields_cons_ok_iff]
    refine exists_congr fun name => and_congr_right fun hname => ?_
    obtain rfl := hasText_unique hkey hname
    simp [h]
  | cons field before ih =>
    obtain ⟨k, v₀⟩ := field
    simp only [List.cons_append, decodeFields_cons_ok_iff, ih]

theorem decodeFields_of_settingsEdit (h : SettingsEdit d fields fields') (s : Settings) :
    decodeFields d fields none none = .ok s ↔ decodeFields d fields' none none = .ok s := by
  cases h with
  | fields hedit => exact decodeFields_of_edit hedit s
  | file before after filesBefore filesAfter hkey hedit =>
    refine decodeFields_of_templates hkey (decodeTemplates_of_items ?_) before after s none none
    apply decodeFiles_of_item
    intro f
    rw [decodeFile_ok_iff, decodeFile_ok_iff]
    simpa [Document.target] using decodeFileFields_of_edit hedit f

/-- **Changes to the fields** leave alone what a document says, however many they are. -/
theorem decodeFields_of_edits (h : Relation.ReflTransGen (SettingsEdit d) fields fields') (s : Settings) :
    decodeFields d fields none none = .ok s ↔ decodeFields d fields' none none = .ok s := by
  induction h with
  | refl => rfl
  | tail _ hedit ih => exact ih.trans (decodeFields_of_settingsEdit hedit s)

end Edit

/-! ## Documents with the same aliases -/

section Congr

variable {d' : Document} (h : ∀ n, d'.target n = d.target n)

include h

theorem decodeText_congr (n : Node) : decodeText d' n = decodeText d n := by
  rw [decodeText, decodeText, h]

theorem decodeFileFields_congr (fields : List (Node × Node)) (path text : Option String) :
    decodeFileFields d' fields path text = decodeFileFields d fields path text := by
  induction fields generalizing path text with
  | nil => cases path <;> cases text <;> rfl
  | cons f rest ih => simp only [decodeFileFields, decodeText_congr h, ih]

theorem decodeFiles_congr (items : List Node) : decodeFiles d' items = decodeFiles d items := by
  induction items with
  | nil => rfl
  | cons n rest ih => simp only [decodeFiles, decodeFile, h, decodeFileFields_congr h, ih]

/-- A document is looked at only through what its aliases stand for. -/
theorem decodeFields_congr (fields : List (Node × Node)) (root : Option Path)
    (files : Option (Option (List FileSource))) :
    decodeFields d' fields root files = decodeFields d fields root files := by
  induction fields generalizing root files with
  | nil => rfl
  | cons f rest ih =>
    simp only [decodeFields, decodeTemplates, h, decodeText_congr h, decodeFiles_congr h, ih]

end Congr

/-! ## The schema -/

/-- The node is a mapping with scalar keys, in which the path and the text of the file stand once each. -/
def IsFile (d : Document) (n : Node) (f : FileSource) : Prop :=
  ∃ fields, d.target n = .mapping fields ∧ HasScalarKeys d fields ∧
    (∃ v, valuesOf d "path" fields = [v] ∧ HasText d v f.path) ∧
    ∃ v, valuesOf d "body" fields = [v] ∧ HasText d v f.text

/-- The schema of a configuration: the root at most once, and a scalar; the files at most once, and written as the
absence of a value or a sequence of files. -/
structure Fits (d : Document) (fields : List (Node × Node)) : Prop where
  root : valuesOf d "output_root" fields = [] ∨
    ∃ v text, valuesOf d "output_root" fields = [v] ∧ HasText d v text
  files : valuesOf d "templates" fields = [] ∨ ∃ v, valuesOf d "templates" fields = [v] ∧
    (HasNull d v ∨ ∃ items, d.target v = .sequence items ∧ ∀ n ∈ items, ∃ f, IsFile d n f)

/-- What a configuration that fits the schema says. -/
structure Gives (d : Document) (fields : List (Node × Node)) (s : Settings) : Prop where
  root : valuesOf d "output_root" fields = [] ∧ s.root = defaultRoot ∨
    ∃ v, valuesOf d "output_root" fields = [v] ∧ HasText d v s.root.text
  files : valuesOf d "templates" fields = [] ∧ s.files = none ∨ ∃ v, valuesOf d "templates" fields = [v] ∧
    (HasNull d v ∧ s.files = none ∨
      ∃ items files, d.target v = .sequence items ∧ List.Forall₂ (IsFile d) items files ∧ s.files = some files)

theorem target_of_isBare {n : Node} (h : n.IsBare) : d.target n = n := by
  cases h <;> rfl

theorem isReadable_of_isBare {known : List String} (h : ∀ f ∈ fields, f.2.IsBare) :
    IsReadable d known fields ↔ HasScalarKeys d fields :=
  forall₂_congr fun f hf => exists_congr fun _ => and_iff_left fun _ => isWhole_of_isBare (h f hf)

theorem isBare_of_mem_valuesOf (h : ∀ f ∈ fields, f.2.IsBare) {v : Node} (hv : v ∈ valuesOf d name fields) :
    v.IsBare := by
  obtain ⟨f, hf, hvalue⟩ := List.mem_filterMap.mp hv
  split at hvalue
  · split at hvalue
    · cases hvalue
      exact h f hf
    · cases hvalue
  · cases hvalue

theorem once_text_iff {values : List Node} {text : String} :
    Once (HasText d) none values (some text) ↔ ∃ v, values = [v] ∧ HasText d v text := by
  simp [once_none_iff]

theorem decodeFile_iff_isFile {n : Node} {f : FileSource} (h : n.IsBare) : decodeFile d n = .ok f ↔ IsFile d n f := by
  rw [decodeFile_ok_iff, IsFile]
  refine exists_congr fun fields => and_congr_right fun htarget => ?_
  rw [target_of_isBare h] at htarget
  subst htarget
  cases h with
  | mapping _ hvalues =>
    rw [decodeFileFields_ok_iff, isReadable_of_isBare hvalues, once_text_iff, once_text_iff]

theorem decodeFiles_iff_isFile {items : List Node} {files : List FileSource} (h : ∀ n ∈ items, n.IsBare) :
    decodeFiles d items = .ok files ↔ List.Forall₂ (IsFile d) items files := by
  rw [decodeFiles_ok_iff]
  induction items generalizing files with
  | nil => simp
  | cons n rest ih =>
    obtain ⟨hn, hrest⟩ := List.forall_mem_cons.mp h
    simp only [List.forall₂_cons_left_iff, decodeFile_iff_isFile hn, ih hrest]

theorem exists_files_iff {items : List Node} :
    (∃ files, List.Forall₂ (IsFile d) items files) ↔ ∀ n ∈ items, ∃ f, IsFile d n f := by
  induction items with
  | nil => simp
  | cons n rest ih =>
    rw [List.forall_mem_cons, ← ih]
    constructor
    · rintro ⟨_, hfiles⟩
      obtain ⟨f, files, hf, hrest, rfl⟩ := List.forall₂_cons_left_iff.mp hfiles
      exact ⟨⟨f, hf⟩, files, hrest⟩
    · rintro ⟨⟨f, hf⟩, files, hrest⟩
      exact ⟨f :: files, .cons hf hrest⟩

/-- What bare fields say is what they are decoded as. -/
theorem decodeFields_iff_gives {s : Settings} (hbare : ∀ f ∈ fields, f.2.IsBare) (hkeys : HasScalarKeys d fields) :
    decodeFields d fields none none = .ok s ↔ Gives d fields s := by
  have htemplates : ∀ v, valuesOf d "templates" fields = [v] → ∀ own, decodeTemplates d v = .ok own ↔
      HasNull d v ∧ own = none ∨
        ∃ items files, d.target v = .sequence items ∧ List.Forall₂ (IsFile d) items files ∧ own = some files := by
    intro v hv own
    have hbarev : v.IsBare := isBare_of_mem_valuesOf hbare (hv ▸ List.mem_singleton_self v)
    rw [decodeTemplates_ok_iff]
    · refine or_congr_right (exists_congr fun items => exists_congr fun files => and_congr_right fun htarget => ?_)
      rw [target_of_isBare hbarev] at htarget
      subst htarget
      cases hbarev with
      | sequence hitems => rw [decodeFiles_iff_isFile hitems]
    · intro scalar htarget
      rw [target_of_isBare hbarev] at htarget
      subst htarget
      cases hbarev with
      | scalar htag => exact htag
  rw [decodeFields_ok_iff, isReadable_of_isBare hbare]
  simp only [once_none_iff]
  constructor
  · rintro ⟨-, root, files, hroot, hfiles, rfl⟩
    refine ⟨?_, ?_⟩
    · rcases hroot with ⟨hnone, rfl⟩ | ⟨v, path, hv, htext, rfl⟩
      · exact .inl ⟨hnone, rfl⟩
      · exact .inr ⟨v, hv, htext⟩
    · rcases hfiles with ⟨hnone, rfl⟩ | ⟨v, own, hv, hown, rfl⟩
      · exact .inl ⟨hnone, rfl⟩
      · exact .inr ⟨v, hv, (htemplates v hv own).mp hown⟩
  · rintro ⟨hroot, hfiles⟩
    obtain ⟨root, files⟩ := s
    have hroot' : ∃ given, (valuesOf d "output_root" fields = [] ∧ given = none ∨
        ∃ v path, valuesOf d "output_root" fields = [v] ∧ HasText d v path.text ∧ given = some path) ∧
        root = given.getD defaultRoot := by
      rcases hroot with ⟨hnone, rfl⟩ | ⟨v, hv, htext⟩
      · exact ⟨none, .inl ⟨hnone, rfl⟩, rfl⟩
      · exact ⟨some root, .inr ⟨v, root, hv, htext, rfl⟩, rfl⟩
    have hfiles' : ∃ given, (valuesOf d "templates" fields = [] ∧ given = none ∨
        ∃ v own, valuesOf d "templates" fields = [v] ∧ decodeTemplates d v = .ok own ∧ given = some own) ∧
        files = given.join := by
      rcases hfiles with ⟨hnone, rfl⟩ | ⟨v, hv, hown⟩
      · exact ⟨none, .inl ⟨hnone, rfl⟩, rfl⟩
      · exact ⟨some files, .inr ⟨v, files, hv, (htemplates v hv files).mpr hown, rfl⟩, rfl⟩
    obtain ⟨given, hgiven, rfl⟩ := hroot'
    obtain ⟨given', hgiven', rfl⟩ := hfiles'
    exact ⟨hkeys, given, given', hgiven, hgiven', rfl⟩

theorem exists_gives_iff : (∃ s, Gives d fields s) ↔ Fits d fields := by
  constructor
  · rintro ⟨s, hroot, hfiles⟩
    refine ⟨hroot.imp And.left fun ⟨v, hv, htext⟩ => ⟨v, _, hv, htext⟩, ?_⟩
    refine hfiles.imp And.left fun ⟨v, hv, hown⟩ => ⟨v, hv, hown.imp And.left ?_⟩
    rintro ⟨items, files, htarget, hitems, -⟩
    exact ⟨items, htarget, exists_files_iff.mp ⟨files, hitems⟩⟩
  · rintro ⟨hroot, hfiles⟩
    have hroot' : ∃ root : Path, valuesOf d "output_root" fields = [] ∧ root = defaultRoot ∨
        ∃ v, valuesOf d "output_root" fields = [v] ∧ HasText d v root.text := by
      rcases hroot with hnone | ⟨v, text, hv, htext⟩
      · exact ⟨defaultRoot, .inl ⟨hnone, rfl⟩⟩
      · exact ⟨⟨text⟩, .inr ⟨v, hv, htext⟩⟩
    obtain ⟨root, hroot'⟩ := hroot'
    rcases hfiles with hnone | ⟨v, hv, hnull | ⟨items, htarget, hitems⟩⟩
    · exact ⟨⟨root, none⟩, hroot', .inl ⟨hnone, rfl⟩⟩
    · exact ⟨⟨root, none⟩, hroot', .inr ⟨v, hv, .inl ⟨hnull, rfl⟩⟩⟩
    · obtain ⟨files, hfiles⟩ := exists_files_iff.mpr hitems
      exact ⟨⟨root, some files⟩, hroot', .inr ⟨v, hv, .inr ⟨items, files, htarget, hfiles, rfl⟩⟩⟩

/-- **The schema of settings.** Let the tree of a document be a mapping with scalar keys, without tags and aliases.
There are settings in it exactly if it fits the schema: `output_root` stands there at most once, and is a scalar;
`templates` stands there at most once, and is written as the absence of a value or is a sequence in which every item is
a mapping with scalar keys, where `path` and `body` stand once each and are scalars. The settings have the texts of
these scalars and the files in the order of the items; a root that is missing is the default, and files that are missing
are none. The settings stay the same if the fields of the mapping, or of an item, come in another order, or if fields of
other names are put between them, whatever their values. -/
theorem decoded_by_schema (d : Document) (fields : List (Node × Node)) (hroot : d.root = .mapping fields)
    (hsound : d.isSound = true) (hbare : d.root.IsBare) (hkeys : HasScalarKeys d fields) :
    ((∃ s, ofDocument d = .ok s) ↔ Fits d fields) ∧
    (∀ s, ofDocument d = .ok s ↔ Gives d fields s) ∧
    ∀ fields', Relation.ReflTransGen (SettingsEdit d) fields fields' →
      ∀ s, ofDocument { d with root := .mapping fields' } = .ok s ↔ ofDocument d = .ok s := by
  have hvalues : ∀ f ∈ fields, f.2.IsBare := by
    rw [hroot] at hbare
    cases hbare with
    | mapping _ hvalues => exact hvalues
  have hdecode : ∀ s, ofDocument d = .ok s ↔ decodeFields d fields none none = .ok s := by
    intro s
    rw [ofDocument_ok_iff, decodeRoot_of_mapping (congrArg d.target hroot), and_iff_right hsound]
  refine ⟨?_, fun s => (hdecode s).trans (decodeFields_iff_gives hvalues hkeys), fun fields' hedits s => ?_⟩
  · simp only [hdecode, decodeFields_iff_gives hvalues hkeys]
    exact exists_gives_iff
  · have htarget : ∀ n, ({ d with root := .mapping fields' } : Document).target n = d.target n := fun _ => rfl
    have hsame := decodeFields_congr htarget
    rw [ofDocument_ok_iff, decodeRoot_of_mapping rfl, hsame, and_iff_right hsound, hdecode]
    exact (decodeFields_of_edits hedits s).symm

/-- The fields of a file, the text first. -/
def bodyFirst : List (Node × Node) := [(.inQuotes "body", .inQuotes "b"), (.inQuotes "path", .inQuotes "p")]

theorem decoded_by_schema_bodyFirst :
    let fields : List (Node × Node) := [(.inQuotes "templates", .sequence [.mapping bodyFirst])]
    let fields' : List (Node × Node) :=
      [(.inQuotes "templates", .sequence [.mapping bodyFirst.reverse]), (.inQuotes "body", .sequence [])]
    ofDocument ⟨.mapping fields, [], true⟩ = .ok ⟨defaultRoot, some [⟨"p", "b"⟩]⟩ ∧
      ofDocument ⟨.mapping fields', [], true⟩ = .ok ⟨defaultRoot, some [⟨"p", "b"⟩]⟩ := by
  intro fields fields'
  let d : Document := ⟨.mapping fields, [], true⟩
  have htext : ∀ text, HasText d (.inQuotes text) text := fun text => ⟨_, rfl, rfl⟩
  have hfile : (Node.mapping bodyFirst).IsBare := by
    apply Node.IsBare.mapping <;> simp [bodyFirst, Yaml.isBare_inQuotes]
  have hbare : d.root.IsBare := by
    apply Node.IsBare.mapping
    · simp [fields, Yaml.isBare_inQuotes]
    · simpa [fields] using Node.IsBare.sequence (by simpa using hfile)
  have hkeys : HasScalarKeys d fields := by simpa [HasScalarKeys, fields] using ⟨_, htext "templates"⟩
  have hfilekeys : HasScalarKeys d bodyFirst := by
    simpa [HasScalarKeys, bodyFirst] using ⟨⟨_, htext "body"⟩, _, htext "path"⟩
  obtain ⟨-, hgives, hedits⟩ := decoded_by_schema d fields rfl rfl hbare hkeys
  have hs : ofDocument d = .ok ⟨defaultRoot, some [⟨"p", "b"⟩]⟩ := by
    refine (hgives _).mpr ⟨.inl ⟨rfl, rfl⟩, .inr ⟨_, rfl, .inr ⟨_, _, rfl, .cons ?_ .nil, rfl⟩⟩⟩
    exact ⟨bodyFirst, rfl, hfilekeys, ⟨_, rfl, htext "p"⟩, _, rfl, htext "b"⟩
  have hreorder : SettingsEdit d fields [(.inQuotes "templates", .sequence [.mapping bodyFirst.reverse])] :=
    .file [] [] [] [] (htext "templates") (.reorder bodyFirst.reverse_perm.symm)
  have hinsert : SettingsEdit d [(.inQuotes "templates", .sequence [.mapping bodyFirst.reverse])] fields' :=
    .fields (.insert [_] [] (htext "body") (by decide) rfl)
  exact ⟨hs, (hedits fields' (.head hreorder (.single hinsert)) _).mpr hs⟩

end Settings
end Stencil
