import Stencil.Proofs.Kit.Plugin
import Stencil.Proofs.Production.Order

/-!
# How the files of a plugin refer to each other

The bundled kit can be drafted for any two names, even such as no file can have. Its five files have different names,
and the texts name the files by the paths that they have: what a template says about another file is written with the
same segments as the path template of that file, so it stays true whatever the holes are filled with.

- **`occurs_text`**: segments that stand in a row are filled with text that stands in a row.
- **`fileName?_eq_of_samePlace`**: paths that lead to the same place have the same file name.
- **`plugin_files_refer`**: the drafts of the kit, and the references between them.
-/

namespace Stencil

/-- The first text stands somewhere in the second. -/
def Occurs (part text : String) : Prop := part.toList <:+: text.toList

/-- Paths to the same place have the same file name. -/
theorem fileName?_eq_of_samePlace {w : Workspace} {p q : Path} {m n : String} (h : w.SamePlace p q)
    (hp : p.fileName? = some m) (hq : q.fileName? = some n) : m = n := by
  obtain ⟨⟨l, node⟩, hfind, hfind'⟩ := h
  have hl := (Workspace.find_eq hfind).1
  have hl' := (Workspace.find_eq hfind').1
  have hm := w.head?_target hp
  rw [← hl, hl', w.head?_target hq] at hm
  exact (Option.some.inj hm).symm

/-- So paths with different file names lead to different places. -/
theorem apart_of_fileNames {paths : List Path} {names : List String} (h : paths.map Path.fileName? = names.map some)
    (hnames : names.Nodup) (w : Workspace) : paths.Pairwise fun p q => ¬ w.SamePlace p q := by
  have hnodup : (paths.map Path.fileName?).Nodup := h ▸ hnames.map (Option.some_injective _)
  have hname : ∀ p ∈ paths, ∃ name, p.fileName? = some name := by
    intro p hp
    obtain ⟨name, -, hname⟩ := List.mem_map.mp (h ▸ List.mem_map_of_mem (f := Path.fileName?) hp)
    exact ⟨name, hname.symm⟩
  refine (List.pairwise_map.mp hnodup).imp_of_mem fun {p q} hp hq hne hsame => hne ?_
  obtain ⟨m, hm⟩ := hname p hp
  obtain ⟨n, hn⟩ := hname q hq
  rw [hm, hn, fileName?_eq_of_samePlace hsame hm hn]

namespace PluginKit

variable {segments part : List Segment}

theorem text_append (who what : String) (segments more : List Segment) :
    text who what (segments ++ more) = text who what segments ++ text who what more := by
  rw [text, List.map_append, String.join_append, text, text]

/-- **In a row.** Segments that stand in a row are filled with text that stands in a row. -/
theorem occurs_text (who what : String) (h : part <:+: segments) :
    Occurs (text who what part) (text who what segments) := by
  obtain ⟨before, after, rfl⟩ := h
  refine ⟨(text who what before).toList, (text who what after).toList, ?_⟩
  simp only [text_append, String.toList_append]

/-! ## Headers -/

/-- What the headers end in. -/
def headerSuffixes : List String := ["_api.hpp", "_plugin.hpp"]

/-- The segments that a header is included by. -/
def includeLine (suffix : String) : List Segment :=
  [.literal "#include <", provider, .literal "/plugins/", name, .literal "/", name, .literal (suffix ++ ">")]

/-- The name that a header is included by. -/
def includeName (who what suffix : String) : String := who ++ "/plugins/" ++ what ++ "/" ++ what ++ suffix

theorem text_header (who what suffix : String) :
    text who what (headerDirectory ++ [name, .literal suffix]) = "include/" ++ includeName who what suffix := by
  simp [text, headerDirectory, includeName, String.append_assoc]

theorem text_includeLine (who what suffix : String) :
    text who what (includeLine suffix) = "#include <" ++ includeName who what suffix ++ ">" := by
  simp [text, includeLine, includeName, String.append_assoc]

theorem includes_headers : ∀ suffix ∈ headerSuffixes, ∀ source ∈ [apiSource, pluginSource],
    includeLine suffix <:+: source := by decide +kernel

/-- **Both sources include both headers**, by the paths of the headers without the first directory. -/
theorem included (who what : String) : ∀ suffix ∈ headerSuffixes, ∃ h,
    text who what (headerDirectory ++ [name, .literal suffix]) = "include/" ++ h ∧
      ∀ source ∈ [apiSource, pluginSource], Occurs ("#include <" ++ h ++ ">") (text who what source) := by
  intro suffix hsuffix
  refine ⟨includeName who what suffix, text_header who what suffix, fun source hsource => ?_⟩
  rw [← text_includeLine]
  exact occurs_text who what (includes_headers suffix hsuffix source hsource)

/-! ## The build description -/

/-- The build description asks for the sources by their path templates. -/
theorem names_sources : ∀ suffix ∈ ["_api.cpp", "_plugin.cpp"], [name, .literal suffix] <:+: buildList := by
  decide +kernel

/-- Where the headers are, as the paths of both begin. -/
def headerPlace (who what : String) : String := "include/" ++ who ++ "/plugins/" ++ what

/-- The build description starts with the pattern of the headers. -/
theorem text_buildList (who what : String) : ∃ rest,
    text who what buildList = "file(GLOB HEADERS \"" ++ headerPlace who what ++ "/*.hpp\")\n" ++ rest := by
  obtain ⟨rest, hrest⟩ : [.literal "file(GLOB HEADERS \"include/", provider, .literal "/plugins/", name,
      .literal "/*.hpp\")", .literal "\n"] <+: buildList := by decide +kernel
  have hopen : ∀ s, "file(GLOB HEADERS \"include/" ++ s = "file(GLOB HEADERS \"" ++ ("include/" ++ s) := fun s => by
    rw [← String.append_assoc]
    rfl
  refine ⟨text who what rest, ?_⟩
  rw [← hrest, text_append]
  simp [text, headerPlace, String.append_assoc, hopen]

/-- If the plugin's name has no slash, the headers are there, and not further down. -/
theorem text_header_eq_place (who : String) {what : String} (h : '/' ∉ what.toList) : ∀ suffix ∈ headerSuffixes,
    let header := text who what (headerDirectory ++ [name, .literal suffix])
    header = headerPlace who what ++ "/" ++ (Path.mk header).lastSegment := by
  have hslash : ∀ suffix ∈ headerSuffixes, '/' ∉ suffix.toList := by decide
  intro suffix hsuffix header
  have hheader : header = headerPlace who what ++ "/" ++ (what ++ suffix) := by
    simp [header, text_header, includeName, headerPlace, String.append_assoc]
  have hlast : (Path.mk header).lastSegment = what ++ suffix := by
    rw [hheader, Path.lastSegment_behind_slash]
    refine Path.lastSegment_of_no_slash ?_
    rw [String.toList_append, List.mem_append]
    exact not_or.mpr ⟨h, hslash suffix hsuffix⟩
  rw [hlast, hheader]

end PluginKit

open PluginKit

/-- **The files of a plugin.** Take any two names and any directory. Both templates of each pattern of the bundled kit
are filled and all five patterns are drafted. The files have five different names, so no two paths lead to the same
place of any workspace. The build description holds the path of each source as it is below the directory. Each source
includes each header by its path without the first directory. If the name of the plugin has no slash, the build
description collects the headers by a pattern for the directory that both of them are in. -/
theorem plugin_files_refer (who what : String) (dir : Path) :
    let b := Bindings.plugin who what
    let stem := (Path.mk what).lastSegment
    let names :=
      ["CMakeLists.txt", stem ++ "_api.hpp", stem ++ "_plugin.hpp", stem ++ "_api.cpp", stem ++ "_plugin.cpp"]
    ∃ build apiHeader pluginHeader apiSource pluginSource : String × String,
      let files := [build, apiHeader, pluginHeader, apiSource, pluginSource]
      (Kit.plugin.IsRead ∧
        Kit.plugin.patterns.map (fun p => (p.path.fill b, p.text.fill b)) = files.map (fun f => (.ok f.1, .ok f.2)) ∧
        Kit.plugin.patterns.map (·.draft dir b) = files.map fun f => .ok ⟨dir.join ⟨f.1⟩, f.2⟩) ∧
      (files.map (fun f => (dir.join ⟨f.1⟩).fileName?) = names.map some ∧ names.Nodup ∧
        ∀ w : Workspace, files.Pairwise fun f g => ¬ w.SamePlace (dir.join ⟨f.1⟩) (dir.join ⟨g.1⟩)) ∧
      build.1 = "CMakeLists.txt" ∧
      (∀ source ∈ [apiSource, pluginSource], Occurs source.1 build.2) ∧
      (∀ header ∈ [apiHeader, pluginHeader], ∃ h, header.1 = "include/" ++ h ∧
        ∀ source ∈ [apiSource, pluginSource], Occurs ("#include <" ++ h ++ ">") source.2) ∧
      ('/' ∉ what.toList → ∃ around rest, build.2 = "file(GLOB HEADERS \"" ++ around ++ "/*.hpp\")\n" ++ rest ∧
        ∀ header ∈ [apiHeader, pluginHeader], header.1 = around ++ "/" ++ (Path.mk header.1).lastSegment) := by
  intro b stem names
  refine ⟨(text who what [.literal "CMakeLists.txt"], text who what buildList),
    (text who what (headerDirectory ++ [name, .literal "_api.hpp"]), text who what apiHeader),
    (text who what (headerDirectory ++ [name, .literal "_plugin.hpp"]), text who what pluginHeader),
    (text who what [name, .literal "_api.cpp"], text who what apiSource),
    (text who what [name, .literal "_plugin.cpp"], text who what pluginSource), ?_⟩
  have hnodup : names.Nodup := nodup_fileNames what
  have hnames := fileNames_filled who what dir
  have happart : ∀ w : Workspace, (filled who what).Pairwise fun f g =>
      ¬ w.SamePlace (dir.join ⟨f.1⟩) (dir.join ⟨g.1⟩) := fun w =>
    List.pairwise_map.mp (apart_of_fileNames (by rwa [List.map_map]) hnodup w)
  refine ⟨⟨Kit.isRead_plugin, fill_plugin who what, draft_plugin who what dir⟩, ⟨hnames, hnodup, happart⟩,
    by simp [text], ?_, ?_, fun hwhat => ?_⟩
  · have hoccurs := fun suffix hsuffix => occurs_text who what (names_sources suffix hsuffix)
    simp only [List.forall_mem_cons, List.not_mem_nil, false_imp_iff, implies_true, and_true] at hoccurs ⊢
    exact hoccurs
  · have hincluded := included who what
    simp only [headerSuffixes, List.forall_mem_cons, List.not_mem_nil, false_imp_iff, implies_true, and_true]
      at hincluded ⊢
    exact hincluded
  · obtain ⟨rest, hrest⟩ := text_buildList who what
    have hplace := text_header_eq_place who hwhat
    refine ⟨headerPlace who what, rest, hrest, ?_⟩
    simp only [headerSuffixes, List.forall_mem_cons, List.not_mem_nil, false_imp_iff, implies_true, and_true]
      at hplace ⊢
    exact hplace

end Stencil
