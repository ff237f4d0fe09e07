import Stencil.Proofs.Kit.Additions
import Stencil.Proofs.Settings.Fields
import Stencil.Proofs.Yaml.Lexing
import Stencil.Proofs.Yaml.Tree

/-!
# Settings that are written and read back

A configuration in block style, with every text in double quotes, carries any root and any files: it is read as the tree
that was meant, and decoded as the settings with these texts.

- **`lexemes_toYaml`**: the configuration is read as the lexemes of its tree.
- **`read_toYaml`**: so it is the document with this tree.
- **`ofYaml_toYaml`**: the settings that are decoded from it.
- **`any_files_carried`**: the whole way from the texts to their kit.
-/

namespace Stencil
namespace Settings

open Yaml

/-! ## Writing -/

/-- What stands behind the hyphen of a file: two fields in two lines. -/
def fileText (f : FileSource) : List Char :=
  ' ' :: (fieldText "path".toList f.path ++ "\n    ".toList ++ fieldText "body".toList f.text)

/-- A file as an item of a sequence, in lines of its own. -/
def fileLines (f : FileSource) : List Char := "\n  -".toList ++ fileText f

/-- A configuration in block style: a field for the root in the first line, and an item of a sequence for each file. -/
def toYaml (root : String) (files : List FileSource) : String :=
  String.ofList (fieldText "output_root".toList root ++ "\ntemplates:".toList ++ files.flatMap fileLines ++ ['\n'])

/-- The fields of a file. -/
def fileFieldNodes (f : FileSource) : List (Node × Node) :=
  [(.plain "path", .inQuotes f.path), (.plain "body", .inQuotes f.text)]

/-- A file as a mapping. -/
def fileNode (f : FileSource) : Node := .mapping (fileFieldNodes f)

/-- The fields of a configuration. -/
def configurationFieldNodes (root : String) (files : List FileSource) : List (Node × Node) :=
  [(.plain "output_root", .inQuotes root), (.plain "templates", .sequence (files.map fileNode))]

/-- A configuration as a mapping. -/
def configurationNode (root : String) (files : List FileSource) : Node := .mapping (configurationFieldNodes root files)

/-! ## Characters of YAML -/

theorem all_isReadable_fieldText {name : List Char} (hname : name.all isReadable = true) (value : String) :
    (fieldText name value).all isReadable = true := by
  have hcolon : isReadable ':' = true := by decide
  have hspace : isReadable ' ' = true := by decide
  simp only [fieldText, List.all_append, List.all_cons, hname, hcolon, hspace, all_isReadable_quoted, Bool.and_true]

theorem all_isReadable_fileLines (f : FileSource) : (fileLines f).all isReadable = true := by
  have hpath := all_isReadable_fieldText (show "path".toList.all isReadable = true by decide) f.path
  have hbody := all_isReadable_fieldText (show "body".toList.all isReadable = true by decide) f.text
  have hspace : isReadable ' ' = true := by decide
  have hhyphen : "\n  -".toList.all isReadable = true := by decide
  have hindent : "\n    ".toList.all isReadable = true := by decide
  simp only [fileLines, fileText, List.all_append, List.all_cons, hpath, hbody, hspace, hhyphen, hindent, Bool.and_true]

theorem all_isReadable_toYaml (root : String) (files : List FileSource) :
    (toYaml root files).toList.all isReadable = true := by
  have hroot := all_isReadable_fieldText (show "output_root".toList.all isReadable = true by decide) root
  have htemplates : "\ntemplates:".toList.all isReadable = true := by decide
  have hnewline : ['\n'].all isReadable = true := by decide
  have hfiles : (files.flatMap fileLines).all isReadable = true := by
    rw [List.all_flatMap, List.all_eq_true]
    exact fun f _ => all_isReadable_fileLines f
  simp only [toYaml, String.toList_ofList, List.all_append, hroot, htemplates, hfiles, hnewline, Bool.and_true]

/-! ## Lexemes

A margin is one more than the column of what it belongs to: 1 for the fields of the configuration, 3 for the hyphens of
the files, and 5 for the fields of a file. -/

/-- The two fields of a file as lexemes. -/
def fileLexemes (f : FileSource) : List Lexeme :=
  [.key, .scalar "path" true, .value, .scalar f.path false, .key, .scalar "body" true, .value, .scalar f.text false]

/-- The two fields of a file, from behind the hyphen. -/
theorem lexes_fileText (f : FileSource) (text : List Char) :
    ∃ column, Lexes ⟨fileText f ++ '\n' :: text, 3, 3, [1, 0], true⟩ (.blockMapping :: fileLexemes f)
      ⟨'\n' :: text, column, 5, [3, 1, 0], false⟩ := by
  let second : List Char := fieldText "body".toList f.text ++ '\n' :: text
  let behindFirst : List Char := "\n    ".toList ++ second
  obtain ⟨column, hpath⟩ : ∃ column, Lexes ⟨fieldText "path".toList f.path ++ behindFirst, 4, 3, [1, 0], true⟩ _
      ⟨behindFirst, column, 5, [3, 1, 0], false⟩ :=
    lexes_fieldText_first (by decide) (by decide) f.path (by decide)
  obtain ⟨column', hbody⟩ : ∃ column', Lexes ⟨second, 4, 5, [3, 1, 0], true⟩ _
      ⟨'\n' :: text, column', 5, [3, 1, 0], false⟩ := lexes_fieldText_next (by decide) (by decide) f.text
  have hlines := hpath.trans hbody.blank.blank.blank.blank.newline
  refine ⟨column', ?_⟩
  simpa [fileText, behindFirst, second, fileLexemes] using hlines.blank

/-- A file from the end of the line before it: what the hyphen makes of the collections around it, and the fields. -/
theorem lexes_fileLines {margin : Nat} {outerMargins : List Nat} {ls : List Lexeme} (f : FileSource) (text : List Char)
    (column : Nat) (hdash : Lexes ⟨'-' :: (fileText f ++ '\n' :: text), 2, margin, outerMargins, true⟩ ls
      ⟨fileText f ++ '\n' :: text, 3, 3, [1, 0], true⟩) :
    ∃ column', Lexes ⟨fileLines f ++ '\n' :: text, column, margin, outerMargins, false⟩
      (ls ++ .blockMapping :: fileLexemes f) ⟨'\n' :: text, column', 5, [3, 1, 0], false⟩ := by
  obtain ⟨column', hfile⟩ := lexes_fileText f text
  exact ⟨column', (hdash.trans hfile).blank.blank.newline⟩

/-- What follows a file starts with the end of its line. -/
theorem exists_newline (files : List FileSource) : ∃ text, files.flatMap fileLines ++ ['\n'] = '\n' :: text := by
  cases files with
  | nil => exact ⟨[], rfl⟩
  | cons f rest => exact ⟨_, rfl⟩

/-- The files behind one file, each from the end of the line before it, and the end of the text. -/
theorem toEnd_files (files : List FileSource) (column : Nat) :
    LexesToEnd ⟨files.flatMap fileLines ++ ['\n'], column, 5, [3, 1, 0], false⟩
      (.blockEnd :: (itemLexemes (files.map fileNode) ++ [.blockEnd, .blockEnd, .streamEnd])) := by
  induction files generalizing column with
  | nil => exact toEnd_of_nested (by decide) (by decide)
  | cons f rest ih =>
    obtain ⟨text, htext⟩ := exists_newline rest
    have hdash : Lexes ⟨'-' :: (fileText f ++ '\n' :: text), 2, 5, [3, 1, 0], true⟩ [.blockEnd, .dash]
        ⟨fileText f ++ '\n' :: text, 3, 3, [1, 0], true⟩ := lexes_dash_next (by decide)
    obtain ⟨column', hfile⟩ := lexes_fileLines f text column hdash
    have hrest := ih column'
    rw [htext] at hrest
    have hlines : (f :: rest).flatMap fileLines ++ ['\n'] = fileLines f ++ '\n' :: text := by
      rw [List.flatMap_cons, List.append_assoc, htext]
    rw [hlines]
    exact hfile.toEnd hrest

/-- The two fields of a configuration up to its files. -/
theorem lexes_header (root : String) (text : List Char) :
    Lexes ⟨fieldText "output_root".toList root ++ "\ntemplates:".toList ++ '\n' :: text, 0, 0, [], true⟩
      [.blockMapping, .key, .scalar "output_root" true, .value, .scalar root false, .key, .scalar "templates" true,
        .value] ⟨'\n' :: text, 10, 1, [0], false⟩ := by
  let second : List Char := "templates".toList ++ ':' :: '\n' :: text
  obtain ⟨column, hroot⟩ : ∃ column, Lexes ⟨fieldText "output_root".toList root ++ '\n' :: second, 0, 0, [], true⟩ _
      ⟨'\n' :: second, column, 1, [0], false⟩ := lexes_fieldText_first (by decide) (by decide) root (by decide)
  have htemplates : Lexes ⟨second, 0, 1, [0], true⟩ _ ⟨'\n' :: text, 10, 1, [0], false⟩ :=
    lexes_field_next (by decide) (by decide) rfl
  rw [List.append_assoc]
  exact hroot.trans htemplates.newline

/-- **In lexemes.** A configuration with files is read as the lexemes of its tree. -/
theorem lexemes_toYaml (root : String) {files : List FileSource} (h : files ≠ []) :
    lexemes (toYaml root files).toList = (configurationNode root files).lexemes ++ [.streamEnd] := by
  obtain ⟨f, rest, rfl⟩ := List.exists_cons_of_ne_nil h
  refine lexemes_of_toEnd (all_isReadable_toYaml root _) ?_
  obtain ⟨text, htext⟩ := exists_newline rest
  have hheader := lexes_header root ("  -".toList ++ fileText f ++ '\n' :: text)
  have hdash : Lexes ⟨'-' :: (fileText f ++ '\n' :: text), 2, 1, [0], true⟩ [.blockSequence, .dash]
      ⟨fileText f ++ '\n' :: text, 3, 3, [1, 0], true⟩ := lexes_dash_first (by decide)
  obtain ⟨column, hfirst⟩ := lexes_fileLines f text 10 hdash
  have hrest := toEnd_files rest column
  rw [htext] at hrest
  have hlines : (toYaml root (f :: rest)).toList = fieldText "output_root".toList root ++ "\ntemplates:".toList ++
      (fileLines f ++ '\n' :: text) := by
    simp only [toYaml, String.toList_ofList, List.flatMap_cons, ← htext, List.append_assoc]
  rw [hlines]
  have hall := hheader.toEnd (hfirst.toEnd hrest)
  simpa [configurationNode, configurationFieldNodes, fileNode, fileFieldNodes, Node.inQuotes, Node.plain, Node.lexemes,
    itemLexemes, fieldLexemes, fileLexemes, fileLines] using hall

/-! ## The document -/

theorem isBare_fileNode (f : FileSource) : (fileNode f).IsBare := by
  apply Node.IsBare.mapping <;> simp [fileFieldNodes, isBare_plain, isBare_inQuotes]

theorem isBare_configurationNode (root : String) (files : List FileSource) : (configurationNode root files).IsBare := by
  have hfiles : (Node.sequence (files.map fileNode)).IsBare := by
    apply Node.IsBare.sequence
    simp [isBare_fileNode]
  apply Node.IsBare.mapping <;> simp [configurationFieldNodes, isBare_plain, isBare_inQuotes, hfiles]

/-- **As a document.** A configuration with files is the document with its tree. -/
theorem read_toYaml (root : String) {files : List FileSource} (h : files ≠ []) :
    Document.read (toYaml root files) = ⟨configurationNode root files, [], true⟩ := by
  have hbare := isBare_configurationNode root files
  rw [Document.read, lexemes_toYaml root h, ofLexemes_lexemes hbare, ofEvents_events hbare]

/-! ## Settings -/

variable {d : Document}

theorem decodeFile_fileNode (f : FileSource) : decodeFile d (fileNode f) = .ok f := rfl

theorem decodeFiles_map (files : List FileSource) : decodeFiles d (files.map fileNode) = .ok files := by
  rw [decodeFiles_ok_iff, List.forall₂_map_left_iff, List.forall₂_same]
  exact fun f _ => decodeFile_fileNode f

theorem decodeFields_configurationFieldNodes (root : String) (files : List FileSource) :
    decodeFields d (configurationFieldNodes root files) none none = .ok ⟨⟨root⟩, some files⟩ := by
  simp [configurationFieldNodes, decodeFields, decodeText, Node.plain, Node.inQuotes, Document.target, refuseTwice,
    decodeTemplates, decodeFiles_map]

/-- **As settings.** From a configuration with files its root and its files are decoded. -/
theorem ofYaml_toYaml (root : String) {files : List FileSource} (h : files ≠ []) :
    ofYaml (toYaml root files) = .ok ⟨⟨root⟩, some files⟩ := by
  rw [ofYaml, read_toYaml root h, ofDocument_ok_iff]
  exact ⟨rfl, decodeFields_configurationFieldNodes root files⟩

end Settings

/-- Adding all files is adding them one after another. -/
theorem Kit.addAll_eq_foldlM (k : Kit) (sources : List FileSource) : k.addAll sources = sources.foldlM Kit.add k := by
  induction sources generalizing k with
  | nil => rfl
  | cons s rest ih =>
    rw [Kit.addAll, List.foldlM_cons]
    cases k.add s with
    | error m => rfl
    | ok k' => exact ih k'

namespace Settings

/-- **Any files are carried.** Whatever the root and the files, as long as there are any, a configuration in block style
with their texts in double quotes is read as the settings with this root and these files, in order. The kit of the
settings is what comes of adding the files one after another to the empty kit, or the flaw that ends it. -/
theorem any_files_carried (root : String) (files : List FileSource) (h : files ≠ []) :
    ∃ s, Settings.parse (toYaml root files) = .ok s ∧ s.root.text = root ∧ s.files = some files ∧
      s.requireKit = (files.foldlM Kit.add Kit.empty).mapError SettingsError.malformed := by
  refine ⟨⟨⟨root⟩, some files⟩, parse_ok_iff.mpr (ofYaml_toYaml root h), rfl, rfl, ?_⟩
  rw [requireKit_of_files, Kit.ofSources, Kit.addAll_eq_foldlM]

theorem any_files_carried_closingBrace :
    let files : List FileSource := [⟨"~", "\x7bn\x7d\x00"⟩, ⟨"", "\n\x7d"⟩]
    let text := "output_root: \"null\"\ntemplates:\n" ++
      "  - path: \"\\U0000007e\"\n    body: \"\\U0000007bn\\U0000007d\\U00000000\"\n" ++
      "  - path: \"\"\n    body: \"\\U0000000a\\U0000007d\"\n"
    toYaml "null" files = text ∧ ∃ s, Settings.parse text = .ok s ∧ s.root.text = "null" ∧ s.files = some files ∧
      s.requireKit = .error (.malformed ⟨"\n\x7d", 1, .unmatched⟩) := by
  intro files text
  have hwritten : toYaml "null" files = text := by decide +kernel
  have hkit : files.foldlM Kit.add Kit.empty = .error ⟨"\n\x7d", 1, .unmatched⟩ := by decide +kernel
  obtain ⟨s, hs, hroot, hfiles, hsame⟩ := any_files_carried "null" files (List.cons_ne_nil _ _)
  rw [hwritten] at hs
  rw [hkit] at hsame
  exact ⟨hwritten, s, hs, hroot, hfiles, hsame⟩

end Settings
end Stencil
