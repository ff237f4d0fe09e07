import Stencil.Proofs.Production.Result

/-!
# Productions stay below their directory

A pattern whose filled path is relative and has no step up is written below the directory of the production.

- **`passes_join`**: the directories that a joined path passes are at or below the directory, or on the way to it.
- **`strictly_below_join`**: the file at a joined path is below the directory.
- **`produce_contained`**: what a production writes, makes or changes, with success or without, is below its directory,
  but for directories on the way to it.
-/

namespace Stencil

namespace Path

/-- The path is relative and never leads up. -/
def Descends (p : Path) : Prop := p.isAbsolute = false ∧ .up ∉ p.components

instance (p : Path) : Decidable p.Descends := inferInstanceAs (Decidable (_ ∧ _))

variable {dir key : Path}

theorem isAbsolute_of_root_mem {p : Path} (h : .root ∈ p.components) : p.isAbsolute = true := by
  have hpiece : ∀ piece, Component.ofPiece piece ≠ some .root := by
    intro piece e
    unfold Component.ofPiece at e
    split at e
    · cases e
    · split at e <;> cases e
  rcases List.mem_append.mp h with h | h
  · have ha : p.anchor = some .root := Option.mem_toList.mp h
    unfold anchor at ha
    split at ha
    · next heq => exact isAbsolute_of_pieces heq (List.cons_ne_nil _ _)
    · cases ha
    · cases ha
  · obtain ⟨piece, -, e⟩ := List.mem_filterMap.mp h
    exact absurd e (hpiece piece)

theorem Descends.components_ne (h : key.Descends) : ∀ c ∈ key.components, c ≠ .root ∧ c ≠ .up := by
  intro c hc
  constructor
  · rintro rfl
    have habsolute := isAbsolute_of_root_mem hc
    rw [h.1] at habsolute
    cases habsolute
  · rintro rfl
    exact h.2 hc

theorem isUnder_join (dir : Path) (h : key.Descends) : (dir.join key).isUnder dir = true := by
  obtain ⟨extra, hextra, -⟩ := exists_components_join h.1 dir
  rw [isUnder_iff, hextra]
  exact List.prefix_append _ _

theorem names_ne_nil (h : key.isAbsolute = false) (hne : key.text ≠ "") : Workspace.names key ≠ [] := by
  obtain ⟨x, xs, hp⟩ := exists_pieces key
  have hx : x ≠ [] := by
    intro e
    rw [pieces_of_relative h hp e, e] at hp
    exact hne (text_eq_empty_iff.mpr hp)
  rw [names_eq, hp, namesOf_cons hx]
  exact List.cons_ne_nil _ _

end Path

namespace Workspace

variable {w w' : Workspace} {dir key : Path} {l : Location}

/-- A path whose components are some of a path that descends leads deeper. -/
theorem suffix_target {q : Path} {extra : List Path.Component} (h : key.Descends) (hsub : extra ⊆ key.components)
    (hq : q.components = dir.components ++ extra) : w.target dir <:+ w.target q := by
  rw [target_eq_foldl w dir, target_eq_foldl w q, hq, List.foldl_append]
  exact Path.suffix_foldl_enter _ fun c hc => h.components_ne c (hsub hc)

/-- **Directories** that a joined path passes are at or below the directory, or the directory's path passes them. -/
theorem passes_join (h : key.Descends) (hpasses : w.Passes (dir.join key) l) :
    w.target dir <:+ l ∨ w.Passes dir l := by
  obtain ⟨q, hq, hfind⟩ := hpasses
  obtain ⟨extra, hextra, hsub⟩ := Path.exists_components_join h.1 dir
  have hprefix := Path.isUnder_iff.mp hq
  have hdir := Path.isUnder_iff.mp (Path.isUnder_join dir h)
  rcases List.prefix_or_prefix_of_prefix hprefix hdir with hup | ⟨more, hmore⟩
  · exact .inr ⟨q, Path.isUnder_iff.mpr hup, hfind⟩
  · have hrest : more <+: extra := by
      rw [hextra, ← hmore] at hprefix
      exact (List.prefix_append_right_inj _).mp hprefix
    rw [(find_eq hfind).1]
    exact .inl (suffix_target h (fun c hc => hsub (hrest.subset hc)) hmore.symm)

/-- **The file** at a joined path is strictly below the directory, unless the path needs a directory there. -/
theorem strictly_below_join (h : key.Descends) (hkey : key.text ≠ "")
    (hapart : w.target (dir.join key) ∉ w.approach (dir.join key)) :
    w.target dir <:+ w.target (dir.join key) ∧ w.target (dir.join key) ≠ w.target dir := by
  obtain ⟨extra, hextra, hsub⟩ := Path.exists_components_join h.1 dir
  refine ⟨suffix_target h hsub hextra, fun e => hapart ?_⟩
  -- the directory itself is on the way to the last name of the path
  have horigin : w.origin (dir.join key) = w.origin dir := by rw [origin, origin, Path.isAbsolute_join h.1]
  rw [e, approach, Path.names_join h.1, List.dropLast_append_of_ne_nil (Path.names_ne_nil h.1 hkey), mem_trail_append,
    horigin]
  exact .inl (follow_mem_trail _ _)

end Workspace

variable {dir : Path} {b : Bindings}

/-- A draft is for the filled path template below the directory. -/
theorem path_of_draft {p : FilePattern} {d : Draft} (h : p.draft dir b = .ok d) :
    ∃ key, p.path.fill b = .ok key ∧ key ≠ "" ∧ d.path = dir.join ⟨key⟩ := by
  rcases draft_cases p dir b with ⟨u, -, e⟩ | ⟨key, text, hkey, -, ⟨-, e⟩ | ⟨hname, e⟩⟩
  · cases h.symm.trans e
  · cases h.symm.trans e
  · obtain rfl := Except.ok.inj (h.symm.trans e)
    exact ⟨key, hkey, fun hempty => hname (.inl hempty), rfl⟩

theorem mem_drafts {ps : List FilePattern} {q : Path} (h : q ∈ (drafts dir b ps).map (·.path)) :
    ∃ p ∈ ps, ∃ key, p.path.fill b = .ok key ∧ key ≠ "" ∧ q = dir.join ⟨key⟩ := by
  obtain ⟨d, hd, rfl⟩ := List.mem_map.mp h
  obtain ⟨p, hp, hdraft⟩ := List.mem_filterMap.mp hd
  cases hpd : p.draft dir b with
  | error f =>
    rw [hpd] at hdraft
    cases hdraft
  | ok d' =>
    rw [hpd] at hdraft
    cases hdraft
    exact ⟨p, hp, path_of_draft hpd⟩

/-- Only drafted paths are written. -/
theorem written_subset (ps : List FilePattern) (w : Workspace) :
    (produce dir b ps w).written ⊆ (drafts dir b ps).map (·.path) := by
  obtain ⟨before, after, ds, rfl, hd, -, -, hwritten, -⟩ := exists_ending dir b w ps
  have hdrafts : drafts dir b (before ++ after) = ds ++ drafts dir b after := by
    rw [← hd.drafts_eq]
    exact List.filterMap_append
  rw [hwritten, hdrafts, List.map_append]
  exact List.subset_append_left _ _

/-- **Containment.** Let no filled path template of a kit be absolute or have a step up. Then the paths that a
production writes have its directory as a component prefix. Whether it goes through or fails, every file that it makes
or changes is strictly below its directory, it makes only directories that are at or below its directory or that the
directory's path passes, and it removes nothing. -/
theorem produce_contained (k : Kit) (dir : Path) (b : Bindings) (w : Workspace)
    (h : ∀ p ∈ k.patterns, ∀ key, p.path.fill b = .ok key → (Path.mk key).Descends) :
    let r := k.produce dir b w
    (∀ p ∈ r.written, p.isUnder dir = true) ∧
    (∀ l n, r.workspace.find dir = .ok (l, n) → l = w.target dir) ∧
    ∀ l, r.workspace.tree.node? l ≠ w.tree.node? l →
      (∃ content, r.workspace.tree.node? l = some (.file content)) ∧ w.target dir <:+ l ∧ l ≠ w.target dir ∨
      w.tree.node? l = none ∧ r.workspace.tree.node? l = some .directory ∧
        (w.target dir <:+ l ∨ r.workspace.Passes dir l) := by
  have hchanged : Workspace.Changed w (k.produce dir b w).workspace _ := changed_produce dir b k.patterns w
  refine ⟨fun q hq => ?_, fun l n hfind => ?_, fun l hl => ?_⟩
  · obtain ⟨p, hp, key, hkey, -, rfl⟩ := mem_drafts (written_subset k.patterns w hq)
    exact Path.isUnder_join dir (h p hp key hkey)
  · rw [(Workspace.find_eq hfind).1, Workspace.target_eq_of_here hchanged.here_eq]
  · rcases hchanged.node?_eq l with e | ⟨hfile, q, hq, rfl, hapart⟩ | ⟨hnone, q, hq, q', hparent, hpasses⟩
    · exact absurd e hl
    · obtain ⟨p, hp, key, hkey, hne, rfl⟩ := mem_drafts hq
      exact .inl ⟨hfile, Workspace.strictly_below_join (h p hp key hkey) hne hapart⟩
    · obtain ⟨p, hp, key, hkey, -, rfl⟩ := mem_drafts hq
      have hjoin := hpasses.of_isUnder (Path.isParent_of_parent? hparent).isUnder
      rw [← Workspace.target_eq_of_here hchanged.here_eq]
      exact .inr ⟨hnone, hpasses.node?_eq, Workspace.passes_join (h p hp key hkey) hjoin⟩

/-- Two files with directories of their own, the second named by a value. -/
def twoNamed : Kit where
  patterns := [
    ⟨.ofSegments [.literal ".//", .hole "name", .literal ".txt"], .ofSegments [.hole "name"]⟩,
    ⟨.ofSegments [.literal "c/", .hole "other"], .ofSegments []⟩]

/-- The name of the second file cannot be used, which shows only when its directory was made. -/
theorem produce_contained_twoNamed :
    let b := (Bindings.empty.insert "name" "a/b").insert "other" "\x00"
    let w := Workspace.fresh "work"
    let r := twoNamed.produce ⟨"d/../out"⟩ b w
    (∀ p ∈ twoNamed.patterns, ∀ key, p.path.fill b = .ok key → (Path.mk key).Descends) ∧
    r.outcome = .error (.file ⟨"d/../out/c/\x00"⟩ .nulCharacter) ∧
    r.written = [⟨"d/../out/.//a/b.txt"⟩] ∧ (∀ p ∈ r.written, p.isUnder ⟨"d/../out"⟩ = true) ∧
    ∀ l, r.workspace.tree.node? l ≠ w.tree.node? l →
      (∃ content, r.workspace.tree.node? l = some (.file content)) ∧ ["out", "work"] <:+ l ∧ l ≠ ["out", "work"] ∨
      w.tree.node? l = none ∧ r.workspace.tree.node? l = some .directory ∧
        (["out", "work"] <:+ l ∨ r.workspace.Passes ⟨"d/../out"⟩ l) := by
  intro b w r
  have hdescends : ∀ p ∈ twoNamed.patterns, ∀ key, p.path.fill b = .ok key → (Path.mk key).Descends := by
    intro p hp key hkey
    rcases List.mem_cons.mp hp with rfl | hp
    · have hfill : (Template.fill (.ofSegments [.literal ".//", .hole "name", .literal ".txt"]) b).toOption =
          some ".//a/b.txt" := by decide +kernel
      rw [hkey] at hfill
      obtain rfl := Option.some.inj hfill
      decide
    · obtain rfl := List.mem_singleton.mp hp
      have hfill : (Template.fill (.ofSegments [.literal "c/", .hole "other"]) b).toOption = some "c/\x00" := by
        decide +kernel
      rw [hkey] at hfill
      obtain rfl := Option.some.inj hfill
      decide
  have hfailure : r.failure = some (.file ⟨"d/../out/c/\x00"⟩ .nulCharacter) := by decide +kernel
  have hwritten : r.written = [⟨"d/../out/.//a/b.txt"⟩] := by decide +kernel
  have htarget : w.target ⟨"d/../out"⟩ = ["out", "work"] := by decide +kernel
  obtain ⟨hunder, -, hchange⟩ := produce_contained twoNamed ⟨"d/../out"⟩ b w hdescends
  rw [htarget] at hchange
  exact ⟨hdescends, outcome_eq_error hfailure, hwritten, hunder, hchange⟩

end Stencil
