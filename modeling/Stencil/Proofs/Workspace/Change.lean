import Stencil.Proofs.Workspace.Components
import Stencil.Proofs.Workspace.Install

/-!
# What putting files changes

Whatever comes of putting files at paths, a workspace changes in two ways only (`Changed`): files are put where the
paths lead, and directories are made that the parents of the paths pass (`Passes`).

- **`passes_of_ensureDirectory`**: a directory made for a path is one that the path passes, also if the attempt fails.
- **`changed_install`**: putting a file, with success or without, changes nothing else.
-/

namespace Stencil
namespace Workspace

variable {w w' w'' : Workspace} {p q : Path} {l : Location}

/-! ## Directories on the way -/

/-- A path that the components of `p` begin with leads to a directory at the location. -/
def Passes (w : Workspace) (p : Path) (l : Location) : Prop :=
  ∃ q, p.isUnder q = true ∧ w.find q = .ok (l, .directory)

theorem Passes.node?_eq (h : w.Passes p l) : w.tree.node? l = some .directory := by
  obtain ⟨_, -, hfind⟩ := h
  exact (find_eq hfind).2

theorem Passes.of_isUnder (h : w.Passes q l) (hpq : p.isUnder q = true) : w.Passes p l := by
  obtain ⟨r, hr, hfind⟩ := h
  exact ⟨r, Path.isUnder_trans hpq hr, hfind⟩

theorem Passes.mono (h : w.Passes p l) (hhere : w'.here = w.here)
    (hdir : ∀ l, w.tree.node? l = some .directory → w'.tree.node? l = some .directory) : w'.Passes p l := by
  obtain ⟨q, hq, hfind⟩ := h
  obtain ⟨hq', rfl⟩ := find_directory_iff.mp hfind
  exact ⟨q, hq, find_directory_iff.mpr ⟨isDirectory_mono hhere hdir hq', (target_eq_of_here hhere q).symm⟩⟩

theorem passes_of_makeDirectory (h : w.makeDirectory p = .ok w') (hl : w'.tree.node? l ≠ w.tree.node? l) :
    w'.Passes p l := by
  obtain ⟨-, -, -, -, hhere, hnode⟩ := of_makeDirectory h
  refine ⟨p, Path.isUnder_refl p, find_directory_iff.mpr ⟨isDirectory_of_makeDirectory h, ?_⟩⟩
  rw [target_eq_of_here hhere]
  by_contra hne
  exact hl ((hnode l).trans (if_neg hne))

/-- A directory that is made for a path is one that the path passes, whatever comes of the attempt. -/
theorem passes_of_ensureDirectory (w : Workspace) (p : Path) :
    ∀ l, (w.ensureDirectory p).1.tree.node? l ≠ w.tree.node? l → (w.ensureDirectory p).1.Passes p l := by
  have hunder : ∀ {p q : Path}, p.parent? = some q → p.isUnder q = true := fun hq =>
    (Path.isParent_of_parent? hq).isUnder
  fun_induction ensureDirectory w p with
  | case1 => exact fun _ hl => absurd rfl hl
  | case2 p _ w' hmake => exact fun _ hl => passes_of_makeDirectory hmake hl
  | case3 => exact fun _ hl => absurd rfl hl
  | case4 p _ _ q hq w' f heq ih =>
    intro l hl
    rw [heq] at ih
    exact (ih l hl).of_isUnder (hunder hq)
  | case5 p _ _ q hq w' heq w'' hmake ih =>
    intro l hl
    rw [heq] at ih
    by_cases hl' : w'.tree.node? l = w.tree.node? l
    · exact passes_of_makeDirectory hmake (hl' ▸ hl)
    · have hgrown := grown_of_makeDirectory hmake
      exact ((ih l hl').of_isUnder (hunder hq)).mono hgrown.here_eq fun _ hd => hgrown.node?_directory hd
  | case6 p _ _ q hq w' heq f hmake ih =>
    intro l hl
    rw [heq] at ih
    exact (ih l hl).of_isUnder (hunder hq)
  | case7 => exact fun _ hl => absurd rfl hl

/-! ## Changes -/

/-- What putting files at the paths can change. Directories stay. Where something has changed there is now a file, at
the target of one of the paths and not where this path needs a directory; or there was nothing, and there is now a
directory that the parent of one of the paths passes. -/
structure Changed (w w' : Workspace) (paths : List Path) : Prop where
  here_eq : w'.here = w.here
  directory : ∀ l, w.tree.node? l = some .directory → w'.tree.node? l = some .directory
  node?_eq : ∀ l, w'.tree.node? l = w.tree.node? l ∨
    (∃ content, w'.tree.node? l = some (.file content)) ∧ (∃ p ∈ paths, l = w.target p ∧ l ∉ w.approach p) ∨
    w.tree.node? l = none ∧ ∃ p ∈ paths, ∃ q, p.parent? = some q ∧ w'.Passes q l

namespace Changed

variable {ps qs : List Path}

theorem refl (w : Workspace) (ps : List Path) : Changed w w ps := ⟨rfl, fun _ => id, fun _ => .inl rfl⟩

theorem mono (h : Changed w w' ps) (hsub : ps ⊆ qs) : Changed w w' qs := by
  refine ⟨h.here_eq, h.directory, fun l => ?_⟩
  rcases h.node?_eq l with e | ⟨hfile, p, hp, hl⟩ | ⟨hnone, p, hp, hl⟩
  · exact .inl e
  · exact .inr (.inl ⟨hfile, p, hsub hp, hl⟩)
  · exact .inr (.inr ⟨hnone, p, hsub hp, hl⟩)

theorem trans (h : Changed w w' ps) (h' : Changed w' w'' ps) : Changed w w'' ps := by
  refine ⟨h'.here_eq.trans h.here_eq, fun l hl => h'.directory l (h.directory l hl), fun l => ?_⟩
  rcases h'.node?_eq l with e' | ⟨hfile, p, hp, hl⟩ | ⟨hnone, hmade⟩
  · rw [e']
    rcases h.node?_eq l with e | hfile | ⟨hnone, p, hp, q, hq, hpasses⟩
    · exact .inl e
    · exact .inr (.inl hfile)
    · exact .inr (.inr ⟨hnone, p, hp, q, hq, hpasses.mono h'.here_eq h'.directory⟩)
  · rw [target_eq_of_here h.here_eq, approach_eq_of_here h.here_eq] at hl
    exact .inr (.inl ⟨hfile, p, hp, hl⟩)
  · rcases h.node?_eq l with e | ⟨⟨content, hfile⟩, -⟩ | ⟨-, p, -, q, -, hpasses⟩
    · exact .inr (.inr ⟨e.symm.trans hnone, hmade⟩)
    · cases hnone.symm.trans hfile
    · cases hnone.symm.trans hpasses.node?_eq

end Changed

theorem changed_ensureDirectory (hq : p.parent? = some q) : Changed w (w.ensureDirectory q).1 [p] := by
  have hgrown := ensureDirectory_grown w q
  refine ⟨hgrown.here_eq, fun _ hl => hgrown.node?_directory hl, fun l => ?_⟩
  by_cases hl : (w.ensureDirectory q).1.tree.node? l = w.tree.node? l
  · exact .inl hl
  · rcases hgrown.node?_eq l with e | ⟨-, hnone, -⟩
    · exact .inl e
    · exact .inr (.inr ⟨hnone, p, List.mem_cons_self, q, hq, passes_of_ensureDirectory w q l hl⟩)

theorem changed_writeFile (w : Workspace) (p : Path) (content : ByteArray) :
    Changed w (w.writeFile p content).workspace [p] := by
  cases hf : (w.writeFile p content).failure with
  | some f =>
    rw [writeFile_of_failure hf]
    exact Changed.refl _ _
  | none =>
    obtain ⟨-, hd, hvacant, hhere, hnode⟩ := of_write (of_writeFile hf)
    refine ⟨hhere, fun l hl => ?_, fun l => ?_⟩
    · rw [hnode, if_neg, hl]
      rintro rfl
      exact hvacant hl
    · by_cases hl : l = w.target p
      · refine .inr (.inl ⟨⟨content, (hnode l).trans (if_pos hl)⟩, p, List.mem_cons_self, hl, fun ha => ?_⟩)
        exact hvacant (hl ▸ hd l ha)
      · exact .inl ((hnode l).trans (if_neg hl))

/-- **What putting a file changes**, with success or without. -/
theorem changed_install (w : Workspace) (p : Path) (content : ByteArray) :
    Changed w (w.install p content).workspace [p] := by
  rcases install_cases w p content with ⟨-, e⟩ | ⟨q, w', f, hq, he, e⟩ | ⟨q, w', hq, he, e⟩
  · rw [e]
    exact changed_writeFile w p content
  · have h := changed_ensureDirectory (w := w) hq
    rw [he] at h
    rw [e]
    exact h
  · have h := changed_ensureDirectory (w := w) hq
    rw [he] at h
    rw [e]
    exact h.trans (changed_writeFile w' p content)

end Workspace
end Stencil
