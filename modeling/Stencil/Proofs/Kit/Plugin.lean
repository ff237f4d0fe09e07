import Mathlib.Data.List.Nodup
import Stencil.Proofs.Draft.Naming
import Stencil.Proofs.Kit.Sources
import Stencil.Proofs.Template.Filling
import Stencil.Proofs.Workspace.Layout

/-!
# What the plugin kit makes

The bundled kit makes five files from two names. Its literals are copied, and each hole is filled with its name as it
is, whatever the name looks like; and the five files are never in each other's way.

- **`fill_eq_text`**: what segments are filled with whose holes are for the two names.
- **`draft_plugin`**: every pattern of the kit is drafted, whatever the two names are.
- **`layout_made`**: the files that are made, and that there is room for all of them.
- **`drafted_plugin`**: the drafts in terms of these files.
-/

namespace Stencil

/-- What is put together from proper segments is filled like them. -/
theorem Template.fill_ofSegments {segments : List Segment} {b : Bindings} {text : String}
    (h : ∀ s ∈ segments, s.Proper) (hfill : Segment.fill b segments = .ok text) :
    (ofSegments segments).fill b = .ok text := by
  have hnames : ∀ name, .hole name ∈ segments → IsIdentifier name.toList :=
    fun name hname => (isName_iff _).mp (h _ hname)
  have hgather : Segment.fill b (Segment.gather (segments.flatMap Segment.tokens)) = .ok text := by
    rw [fill_eq, Segment.tokens_gather (Segment.wellFormed_tokens hnames), ← fill_eq, hfill]
  rw [fill, ofSegments, ofTokens, hgather]

/-- Texts that end in different characters are different, whatever stands before the end of one. -/
theorem append_ne {suffix other : String} (stem : String) (hsuffix : suffix ≠ "")
    (h : suffix.toList.getLast? ≠ other.toList.getLast?) : stem ++ suffix ≠ other := by
  rintro rfl
  have hlast : suffix.toList.getLast? ≠ none := mt List.getLast?_eq_none_iff.mp (mt String.toList_eq_nil_iff.mp hsuffix)
  obtain ⟨c, hc⟩ := Option.ne_none_iff_exists'.mp hlast
  apply h
  rw [String.toList_append, List.getLast?_append, hc, Option.some_or]

namespace PluginKit

variable {who what : String} {segments : List Segment}

/-! ## Texts -/

/-- A literal as it is, or the name that a hole is for: who provides the plugin or what it is called. -/
def put (who what : String) : Segment → String
  | .literal text => text
  | .hole hole => if hole = Bindings.pluginName then what else who

@[simp] theorem put_literal (text : String) : put who what (.literal text) = text := rfl

@[simp] theorem put_provider : put who what provider = who := rfl

@[simp] theorem put_name : put who what name = what := rfl

/-- The segments with the two names put into their holes. -/
def text (who what : String) (segments : List Segment) : String := String.join (segments.map (put who what))

/-- Text, or a hole for one of the two names. -/
def Bound : Segment → Prop
  | .literal _ => True
  | .hole hole => hole = Bindings.providerName ∨ hole = Bindings.pluginName

instance : DecidablePred Bound
  | .literal _ => isTrue trivial
  | .hole hole => inferInstanceAs (Decidable (hole = Bindings.providerName ∨ hole = Bindings.pluginName))

theorem get?_plugin (who what : String) {hole : String} (h : Bound (.hole hole)) :
    (Bindings.plugin who what).get? hole = some (put who what (.hole hole)) := by
  rw [Bindings.plugin, Bindings.get?_insert, Bindings.get?_insert, put]
  rcases h with rfl | rfl
  · rw [if_neg (by decide), if_pos rfl, if_neg (by decide)]
  · rw [if_pos rfl, if_pos rfl]

/-- **Verbatim**: literals are copied, and the names put in as they are. -/
theorem fill_eq_text (h : ∀ s ∈ segments, Bound s) :
    Segment.fill (.plugin who what) segments = .ok (text who what segments) := by
  induction segments with
  | nil => rfl
  | cons s rest ih =>
    have ih := ih fun t ht => h t (List.mem_cons_of_mem s ht)
    have htext : text who what (s :: rest) = put who what s ++ text who what rest := String.join_cons
    cases s with
    | literal text => rw [Segment.fill, ih, htext, put]
    | hole hole =>
      have hget := get?_plugin who what (h _ List.mem_cons_self)
      simp only [Segment.fill, hget, ih, htext]

theorem bound_files : ∀ f ∈ files, (∀ s ∈ f.1, Bound s) ∧ ∀ s ∈ f.2, Bound s := by decide +kernel

/-! ## Files -/

/-- Where a plugin goes. -/
def home (what : String) : List String := ["libraries", "plugins", what]

/-- The files of a plugin: the names that lead to each from where the plugin goes, and the text. -/
def made (who what : String) : List (List String × String) := [
  (["CMakeLists.txt"], text who what buildList),
  (["include", who, "plugins", what, what ++ "_api.hpp"], text who what apiHeader),
  (["include", who, "plugins", what, what ++ "_plugin.hpp"], text who what pluginHeader),
  ([what ++ "_api.cpp"], text who what apiSource),
  ([what ++ "_plugin.cpp"], text who what pluginSource)]

/-- What the templates of the kit are filled with: the path of each file below the plugin's directory, and the text. -/
def filled (who what : String) : List (String × String) := files.map fun f => (text who what f.1, text who what f.2)

/-- The paths are those of the names. -/
theorem filled_eq (who what : String) :
    filled who what = (made who what).map fun f => ((Path.ofNames f.1).text, f.2) := by
  have hlist : text who what [.literal "CMakeLists.txt"] = (Path.ofNames ["CMakeLists.txt"]).text := by
    simp [text, Path.ofNames]
  have hslash : ∀ s, "/plugins/" ++ s = "/" ++ ("plugins/" ++ s) := fun s => by
    rw [← String.append_assoc]
    rfl
  have hheader : ∀ suffix, text who what (headerDirectory ++ [name, .literal suffix]) =
      (Path.ofNames ["include", who, "plugins", what, what ++ suffix]).text := by
    intro suffix
    simp [headerDirectory, text, Path.ofNames, String.intercalate_cons_cons, String.append_assoc, hslash]
  have hsource : ∀ suffix, text who what [name, .literal suffix] = (Path.ofNames [what ++ suffix]).text := by
    intro suffix
    simp [text, Path.ofNames]
  simp only [filled, files, made, List.map_cons, List.map_nil, hlist, hheader, hsource]

/-- The names of no file begin those of another. -/
theorem apart_made (who what : String) : (made who what).Pairwise fun f g => ¬ f.1 <+: g.1 ∧ ¬ g.1 <+: f.1 := by
  -- the names of source files differ from those beside them by their last letters
  have hends : ∀ suffix ∈ ["_api.cpp", "_plugin.cpp"], ∀ other ∈ ["CMakeLists.txt", "include"],
      suffix ≠ "" ∧ suffix.toList.getLast? ≠ other.toList.getLast? := by decide +kernel
  have hsource : ∀ suffix ∈ ["_api.cpp", "_plugin.cpp"], ∀ other ∈ ["CMakeLists.txt", "include"],
      what ++ suffix ≠ other := fun suffix hsuffix other hother =>
    append_ne what (hends suffix hsuffix other hother).1 (hends suffix hsuffix other hother).2
  have hlist : ∀ suffix ∈ ["_api.cpp", "_plugin.cpp"], "CMakeLists.txt" ≠ what ++ suffix :=
    fun suffix hsuffix => (hsource suffix hsuffix _ (by decide)).symm
  simp only [List.forall_mem_cons, List.not_mem_nil, false_imp_iff, implies_true, and_true] at hsource hlist
  simp [made, hsource, hlist]

/-! ## Drafts -/

/-- What the names of the files end in, that of the build description apart. -/
def suffixes : List String := ["_api.hpp", "_plugin.hpp", "_api.cpp", "_plugin.cpp"]

/-- The names of the files. Of the plugin's name only what follows its last slash is in them. -/
def fileNames (what : String) : List String := "CMakeLists.txt" :: suffixes.map ((Path.mk what).lastSegment ++ ·)

theorem lastSegments_filled (who what : String) :
    (filled who what).map (fun f => (Path.mk f.1).lastSegment) = fileNames what := by
  have hlast : ∀ names, ∀ suffix ∈ suffixes,
      (Path.ofNames (names ++ [what ++ suffix])).lastSegment = (Path.mk what).lastSegment ++ suffix := by
    have hslash : ∀ suffix ∈ suffixes, '/' ∉ suffix.toList := by decide
    intro names suffix hsuffix
    rw [Path.lastSegment_ofNames, Path.lastSegment_append what (hslash suffix hsuffix)]
  have hlist : (Path.ofNames ["CMakeLists.txt"]).lastSegment = "CMakeLists.txt" := by
    have hslash : '/' ∉ "CMakeLists.txt".toList := by decide
    exact Path.lastSegment_of_no_slash hslash
  have hheader := hlast ["include", who, "plugins", what]
  have hsource := hlast []
  simp only [suffixes, List.forall_mem_cons, List.not_mem_nil, false_imp_iff, implies_true, and_true,
    List.cons_append, List.nil_append] at hheader hsource
  calc (filled who what).map (fun f => (Path.mk f.1).lastSegment)
      = (made who what).map fun f => (Path.ofNames f.1).lastSegment := by
        rw [filled_eq, List.map_map]
        rfl
    _ = fileNames what := by
        simp only [made, fileNames, suffixes, List.map_cons, List.map_nil, hlist, hheader, hsource]

theorem nodup_fileNames (what : String) : (fileNames what).Nodup := by
  have hends : ∀ suffix ∈ suffixes, suffix ≠ "" ∧ suffix.toList.getLast? ≠ "CMakeLists.txt".toList.getLast? := by
    decide +kernel
  refine List.nodup_cons.mpr ⟨fun hmem => ?_, ?_⟩
  · obtain ⟨suffix, hsuffix, he⟩ := List.mem_map.mp hmem
    exact append_ne _ (hends suffix hsuffix).1 (hends suffix hsuffix).2 he
  · exact List.Nodup.map (fun _ _ => (String.append_right_inj _).mp) (by decide)

theorem proper_fileNames {what name : String} (h : name ∈ fileNames what) : name ∉ ["", ".", ".."] := by
  have hends : ∀ suffix ∈ suffixes, ∀ other ∈ ["", ".", ".."],
      suffix ≠ "" ∧ suffix.toList.getLast? ≠ other.toList.getLast? := by decide +kernel
  intro hmem
  rcases List.mem_cons.mp h with rfl | h
  · exact absurd hmem (by decide)
  · obtain ⟨suffix, hsuffix, he⟩ := List.mem_map.mp h
    exact append_ne _ (hends suffix hsuffix name hmem).1 (hends suffix hsuffix name hmem).2 he

/-- Each of the paths ends in a proper name. -/
theorem named_filled {f : String × String} (hf : f ∈ filled who what) (dir : Path) :
    ¬ Nameless dir f.1 ∧ (dir.join ⟨f.1⟩).fileName? = some (Path.mk f.1).lastSegment := by
  have hname : (Path.mk f.1).lastSegment ∈ fileNames what := by
    rw [← lastSegments_filled who what]
    exact List.mem_map_of_mem hf
  exact named_of_lastSegment dir (proper_fileNames hname)

theorem fileNames_filled (who what : String) (dir : Path) :
    (filled who what).map (fun f => (dir.join ⟨f.1⟩).fileName?) = (fileNames what).map some := by
  rw [← lastSegments_filled who what, List.map_map]
  exact List.map_congr_left fun f hf => (named_filled hf dir).2

theorem fill_file {f : List Segment × List Segment} (hf : f ∈ files) (who what : String) :
    (Template.ofSegments f.1).fill (.plugin who what) = .ok (text who what f.1) ∧
      (Template.ofSegments f.2).fill (.plugin who what) = .ok (text who what f.2) := by
  obtain ⟨hpath, htext⟩ := bound_files f hf
  obtain ⟨hproper, hproper'⟩ := Kit.proper_plugin f hf
  exact ⟨Template.fill_ofSegments hproper (fill_eq_text hpath), Template.fill_ofSegments hproper' (fill_eq_text htext)⟩

theorem fill_plugin (who what : String) :
    Kit.plugin.patterns.map (fun p => (p.path.fill (.plugin who what), p.text.fill (.plugin who what))) =
      (filled who what).map fun f => (.ok f.1, .ok f.2) := by
  rw [filled, Kit.plugin, List.map_map, List.map_map]
  exact List.map_congr_left fun f hf => Prod.ext (fill_file hf who what).1 (fill_file hf who what).2

/-- **Every pattern of the kit is drafted**, whatever the two names are. -/
theorem draft_plugin (who what : String) (dir : Path) :
    Kit.plugin.patterns.map (·.draft dir (.plugin who what)) =
      (filled who what).map fun f => .ok ⟨dir.join ⟨f.1⟩, f.2⟩ := by
  rw [filled, Kit.plugin, List.map_map, List.map_map]
  refine List.map_congr_left fun f hf => ?_
  obtain ⟨hkey, htext⟩ := fill_file hf who what
  obtain ⟨hnamed, -⟩ := named_filled (List.mem_map_of_mem hf) dir
  exact ((draft_of_filled hkey htext).resolve_left fun h => hnamed h.1).2

/-! ## Room for the files -/

theorem plain_home (hwhat : PlainName what) : ∀ n ∈ home what, PlainName n := by
  have hfixed : PlainName "libraries" ∧ PlainName "plugins" := by decide
  simp [home, hwhat, hfixed]

section Names

variable (hwho : PlainName who) (hwhat : PlainName what) (hlen : what.utf8ByteSize ≤ 244)
include hwho hwhat hlen

theorem plain_made : ∀ f ∈ made who what, f.1 ≠ [] ∧ ∀ n ∈ f.1, PlainName n := by
  have hfacts : ∀ suffix ∈ suffixes,
      '/' ∉ suffix.toList ∧ Char.ofNat 0 ∉ suffix.toList ∧ 2 < suffix.length ∧ suffix.utf8ByteSize ≤ 11 := by decide
  have happend : ∀ suffix ∈ suffixes, PlainName (what ++ suffix) := by
    intro suffix hsuffix
    obtain ⟨hslash, hnul, hlength, hbytes⟩ := hfacts suffix hsuffix
    exact hwhat.append hslash hnul hlength (Nat.add_le_add hlen hbytes)
  have hfixed : PlainName "include" ∧ PlainName "plugins" ∧ PlainName "CMakeLists.txt" := by decide
  simp only [suffixes, List.forall_mem_cons, List.not_mem_nil, false_imp_iff, implies_true, and_true] at happend
  simp [made, hwho, hwhat, hfixed, happend]

/-- **Room for a plugin**: its files are not in each other's way. -/
theorem layout_made : Workspace.Layout ((made who what).map fun f => (home what ++ f.1, f.2)) := by
  have hplain : ∀ f ∈ made who what, ∀ n ∈ home what ++ f.1, PlainName n := fun f hf n hn =>
    (List.mem_append.mp hn).elim (plain_home hwhat n) ((plain_made hwho hwhat hlen f hf).2 n)
  have hlength : ∀ f ∈ made who what, (home what ++ f.1).length ≤ 8 := by simp [made, home]
  refine ⟨List.forall_mem_map.mpr fun f _ => ?_, List.forall_mem_map.mpr hplain, List.forall_mem_map.mpr fun f hf => ?_,
    List.pairwise_map.mpr ?_⟩
  · exact List.cons_ne_nil _ _
  · calc (Path.ofNames (home what ++ f.1)).text.utf8ByteSize
        ≤ (home what ++ f.1).length * (Workspace.longestName + 1) := Path.utf8ByteSize_ofNames_le (hplain f hf)
      _ ≤ 8 * (Workspace.longestName + 1) := Nat.mul_le_mul_right _ (hlength f hf)
      _ ≤ Workspace.longestPath := by decide
  · simp only [List.prefix_append_right_inj]
    exact apart_made who what

/-- The drafts of the kit are these files. -/
theorem drafted_plugin : Drafted (.ofNames (home what)) (.plugin who what) Kit.plugin.patterns
    (((made who what).map fun f => (home what ++ f.1, f.2)).map Workspace.atNames) := by
  have hjoin : ∀ f ∈ made who what, (Path.ofNames (home what)).join (.ofNames f.1) = .ofNames (home what ++ f.1) := by
    intro f hf
    obtain ⟨hne, hplain⟩ := plain_made hwho hwhat hlen f hf
    exact Path.join_ofNames (List.cons_ne_nil _ _) hne (plain_home hwhat) hplain
  let draft : String × String → Except Failure Draft := fun f => .ok ⟨(Path.ofNames (home what)).join ⟨f.1⟩, f.2⟩
  calc Kit.plugin.patterns.map (·.draft (.ofNames (home what)) (.plugin who what))
      = (filled who what).map draft := draft_plugin who what _
    _ = (made who what).map fun f => draft ((Path.ofNames f.1).text, f.2) := by
        rw [filled_eq, List.map_map]
        rfl
    _ = (((made who what).map fun f => (home what ++ f.1, f.2)).map Workspace.atNames).map .ok := by
        rw [List.map_map, List.map_map]
        exact List.map_congr_left fun f hf => congrArg (fun q => Except.ok (Draft.mk q f.2)) (hjoin f hf)

end Names

end PluginKit
end Stencil
