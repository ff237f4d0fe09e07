import Stencil.Draft
import Stencil.Proofs.Workspace.Ensure

/-!
# Putting files

A file is put at a path by making the directories that the path is approached by and writing the file there.

- **`install_failure_iff`**: this succeeds exactly when the path fits (`Fits`): it can name a file, no file stands where
  a directory is needed, and no directory stands or is needed where the file is to be.
- **`installed_of_install`**: afterwards the file is there, the approach is made of directories, and everything else is
  as it was.
- **`grown_of_install`**, **`install_again`**: a failure leaves nothing but directories of the approach, and these do
  not help: the same file fails again, and nothing more is made.
-/

namespace Stencil
namespace Workspace

variable {w w' : Workspace} {p : Path} {content : ByteArray}

/-! ## Writing where the directory is -/

/-- Paths that can name a file. -/
structure Writable (p : Path) : Prop where
  usable_ok : usable p = .ok ()
  short : Short (names p)
  last_name : ∃ name, (names p).getLast? = some name ∧ name ≠ "." ∧ name ≠ ".."
  not_endsInSlash : p.endsInSlash = false

theorem Writable.getLast?_ne_dot (h : Writable p) : (names p).getLast? ≠ some "." := by
  obtain ⟨name, hlast, hdot, _⟩ := h.last_name
  rw [hlast]
  intro e
  exact hdot (Option.some.inj e)

/-- What a file that was written has needed, and what it changes. -/
theorem of_write (h : w.write p content = .ok w') :
    Writable p ∧ Directories w.tree (w.approach p) ∧ w.tree.node? (w.target p) ≠ some .directory ∧
      w'.here = w.here ∧ ∀ l, w'.tree.node? l = if l = w.target p then some (.file content) else w.tree.node? l := by
  unfold write at h
  split at h
  · cases h
  · cases h
  · next l name hl hloc =>
    obtain ⟨hu, hnames, hdot, hs, hdirs, htarget⟩ := of_locate_entry hloc
    split at h
    · cases h
    · next hslash =>
      split at h
      · cases h
      · next hlen =>
        split at h
        · cases h
        · next hvacant =>
          obtain rfl := Except.ok.inj h
          have hlast : (names p).getLast? = some name := by rw [hnames, List.getLast?_concat]
          have hshort : Short (names p) := by
            rw [hnames]
            exact hs.concat hlen
          refine ⟨⟨hu, hshort, ⟨name, hlast, hdot⟩, Bool.eq_false_iff.mpr hslash⟩, hdirs, htarget ▸ hvacant, rfl, ?_⟩
          intro m
          rw [← htarget]
          exact node?_put m

theorem write_of_approach (hp : Writable p) (hd : Directories w.tree (w.approach p))
    (ht : w.tree.node? (w.target p) ≠ some .directory) : ∃ w', w.write p content = .ok w' := by
  obtain ⟨name, hlast, hdot⟩ := hp.last_name
  obtain ⟨l, hl, hloc, htarget⟩ := locate_eq_entry hp.usable_ok (names_eq_concat hlast) hdot hp.short.dropLast hd
  rw [← htarget] at ht
  unfold write
  simp only [hloc, hp.not_endsInSlash, Bool.false_eq_true, if_false, if_neg (hp.short.not_lt hlast), dif_neg ht]
  exact ⟨_, rfl⟩

/-- A path that names a file leads to what stands at its target. -/
theorem find_of_approach {n : Tree.Node} (hp : Writable p) (hd : Directories w.tree (w.approach p))
    (ht : w.tree.node? (w.target p) = some n) : w.find p = .ok (w.target p, n) := by
  obtain ⟨name, hlast, -⟩ := hp.last_name
  have hlastdir := hd _ (follow_mem_trail _ _)
  have hwalk : walk w.tree (w.origin p) (names p) = .ok (w.target p) := by
    rw [target, names_eq_concat hlast, follow_append] at ht ⊢
    rw [walk_append [name] hd hp.short.dropLast, walk, step_directory name hlastdir, if_neg (hp.short.not_lt hlast)]
    simp only [follow] at ht ⊢
    rw [ht]
    rfl
  unfold find
  simp only [hp.usable_ok, hwalk, ht, hp.not_endsInSlash, Bool.false_and, Bool.false_eq_true, if_false]

theorem writeFile_of_ok (h : w.write p content = .ok w') : w.writeFile p content = ⟨none, w', [.written p]⟩ := by
  rw [writeFile, h]

theorem of_writeFile (h : (w.writeFile p content).failure = none) :
    w.write p content = .ok (w.writeFile p content).workspace := by
  unfold writeFile at h ⊢
  split at h
  · cases h
  · next w' hw => exact hw

theorem writeFile_of_failure {f : Failure} (h : (w.writeFile p content).failure = some f) :
    (w.writeFile p content).workspace = w := by
  unfold writeFile at h ⊢
  split at h
  · rfl
  · cases h

/-! ## Writing behind its directory -/

/-- There is room for a file at the path. -/
structure Fits (w : Workspace) (p : Path) : Prop where
  writable : Writable p
  clear : Clear w.tree (w.approach p)
  vacant : w.tree.node? (w.target p) ≠ some .directory
  apart : w.target p ∉ w.approach p

/-- The file is there, and the directories that lead to it; all else is as it was. -/
structure Installed (w w' : Workspace) (p : Path) (content : ByteArray) : Prop where
  here_eq : w'.here = w.here
  node?_eq : ∀ l, w'.tree.node? l =
    if l = w.target p then some (.file content) else if l ∈ w.approach p then some .directory else w.tree.node? l

theorem not_writable_of_parent?_none (h : p.parent? = none) : ¬ Writable p := by
  intro hp
  obtain ⟨name, hlast, hdot, _⟩ := hp.last_name
  exact hdot (dots_of_parent?_none h name (List.mem_of_getLast? hlast))

/-- How putting a file goes: there is no parent to make; or the parent cannot be made; or it is made, and then the file
is written. -/
theorem install_cases (w : Workspace) (p : Path) (content : ByteArray) :
    (p.parent? = none ∧ w.install p content = w.writeFile p content) ∨
    (∃ q w' f, p.parent? = some q ∧ w.ensureDirectory q = (w', some f) ∧
      w.install p content = ⟨some (.directory q f), w', [.notEnsured q]⟩) ∨
    ∃ q w', p.parent? = some q ∧ w.ensureDirectory q = (w', none) ∧
      w.install p content = ⟨(w'.writeFile p content).failure, (w'.writeFile p content).workspace,
        .ensured q :: (w'.writeFile p content).log⟩ := by
  cases hq : p.parent? with
  | none => exact .inl ⟨rfl, by rw [install, hq]⟩
  | some q =>
    cases he : w.ensureDirectory q with
    | mk w' fault =>
      cases fault with
      | some f => exact .inr (.inl ⟨q, w', f, rfl, he, by simp only [install, hq, he]⟩)
      | none => exact .inr (.inr ⟨q, w', rfl, he, by simp only [install, hq, he]⟩)

/-- Once the parent is ensured, the file is written if the path fits. -/
theorem write_of_fits {q : Path} (hq : p.parent? = some q) (he : w.ensureDirectory q = (w', none)) (h : Fits w p) :
    ∃ w'', w'.write p content = .ok w'' := by
  have hgrown := ensureDirectory_grown w q
  have hdirs := directories_of_ensureDirectory he
  rw [he] at hgrown
  have hway := mem_approach_iff (Path.isParent_of_parent? hq) w' h.writable.getLast?_ne_dot
  refine write_of_approach h.writable (hdirs.mono fun l hl => (hway l).mp hl) ?_
  rw [target_eq_of_here hgrown.here_eq]
  intro hdir
  rcases hgrown.node?_eq (w.target p) with e | ⟨hl, -, -⟩
  · exact h.vacant (e.symm.trans hdir)
  · exact h.apart (way_parent_subset (Path.isParent_of_parent? hq) hl)

/-- The parent can be ensured if the path fits. -/
theorem ensureDirectory_of_fits {q : Path} (hq : p.parent? = some q) (h : Fits w p) :
    (w.ensureDirectory q).2 = none := by
  have hparent := Path.isParent_of_parent? hq
  apply ensureDirectory_of_makeable
  exact {
    usable_ok := hparent.usable h.writable.usable_ok
    short := short_parent hparent h.writable.short
    clear := h.clear.mono (way_parent_subset hparent)
    last_name := hparent.last_name }

/-- Where a file was written behind its directory, there was room for it. -/
theorem fits_and_installed {q : Path} (hq : p.parent? = some q) {w₁ : Workspace}
    (he : w.ensureDirectory q = (w₁, none)) (hw : w₁.write p content = .ok w') :
    Fits w p ∧ Installed w w' p content := by
  obtain ⟨hp, hd, hvacant, hhere, hnode⟩ := of_write hw
  have hgrown := ensureDirectory_grown w q
  rw [he] at hgrown
  have hway := mem_approach_iff (Path.isParent_of_parent? hq) w hp.getLast?_ne_dot
  rw [target_eq_of_here hgrown.here_eq] at hvacant hnode
  rw [approach_eq_of_here hgrown.here_eq] at hd
  constructor
  · refine ⟨hp, fun l hl => ?_, fun hdir => hvacant (hgrown.node?_directory hdir), fun hl => hvacant (hd _ hl)⟩
    rcases hgrown.node?_eq l with e | ⟨-, hnone, -⟩
    · exact .inr (e.symm.trans (hd l hl))
    · exact .inl hnone
  · refine ⟨hhere.trans hgrown.here_eq, fun l => ?_⟩
    rw [hnode]
    by_cases ht : l = w.target p
    · rw [if_pos ht, if_pos ht]
    · rw [if_neg ht, if_neg ht]
      by_cases hl : l ∈ w.approach p
      · rw [if_pos hl]
        exact hd l hl
      · rw [if_neg hl]
        rcases hgrown.node?_eq l with e | ⟨hl', -, -⟩
        · exact e
        · exact absurd ((hway l).mpr hl') hl

/-! ## Success -/

theorem fits_and_installed_of_install (h : (w.install p content).failure = none) :
    Fits w p ∧ Installed w (w.install p content).workspace p content := by
  rcases install_cases w p content with ⟨hq, e⟩ | ⟨q, w', f, -, -, e⟩ | ⟨q, w', hq, he, e⟩
  · rw [e] at h
    have hp := (of_write (of_writeFile h)).1
    exact absurd hp (not_writable_of_parent?_none hq)
  · rw [e] at h
    cases h
  · rw [e] at h ⊢
    exact fits_and_installed hq he (of_writeFile h)

theorem install_of_fits (h : Fits w p) : (w.install p content).failure = none := by
  rcases install_cases w p content with ⟨hq, -⟩ | ⟨q, w', f, hq, he, -⟩ | ⟨q, w', hq, he, e⟩
  · exact absurd h.writable (not_writable_of_parent?_none hq)
  · have hok := ensureDirectory_of_fits hq h
    rw [he] at hok
    cases hok
  · obtain ⟨w'', hw⟩ := write_of_fits hq he h
    rw [e, writeFile_of_ok hw]

/-- **When files can be put.** A file can be put at a path exactly when the path fits. -/
theorem install_failure_iff : (w.install p content).failure = none ↔ Fits w p :=
  ⟨fun h => (fits_and_installed_of_install h).1, install_of_fits⟩

/-- **What putting a file changes.** -/
theorem installed_of_install (h : (w.install p content).failure = none) :
    Installed w (w.install p content).workspace p content :=
  (fits_and_installed_of_install h).2

/-! ## Failure -/

theorem grown_of_install {f : Failure} (h : (w.install p content).failure = some f) :
    Grown w (w.install p content).workspace (w.approach p) := by
  have hgrown : ∀ {q : Path}, p.parent? = some q → Grown w (w.ensureDirectory q).1 (w.approach p) := by
    intro q hq
    exact (ensureDirectory_grown w q).mono (way_parent_subset (Path.isParent_of_parent? hq))
  rcases install_cases w p content with ⟨-, e⟩ | ⟨q, w', f', hq, he, e⟩ | ⟨q, w', hq, he, e⟩
  · rw [e] at h ⊢
    rw [writeFile_of_failure h]
    exact Grown.refl _ _
  · have hg := hgrown hq
    rw [he] at hg
    rw [e]
    exact hg
  · have hg := hgrown hq
    rw [he] at hg
    rw [e] at h ⊢
    rw [writeFile_of_failure h]
    exact hg

/-- **Failing twice.** What a failure leaves behind does not help: the same file fails again, and changes nothing. -/
theorem install_again {f : Failure} (h : (w.install p content).failure = some f) :
    ∃ f', ((w.install p content).workspace.install p content).failure = some f' ∧
      ((w.install p content).workspace.install p content).workspace = (w.install p content).workspace := by
  rcases install_cases w p content with ⟨hq, e⟩ | ⟨q, w', f', hq, he, e⟩ | ⟨q, w', hq, he, e⟩
  · rw [e] at h
    have hw := writeFile_of_failure h
    rw [e, hw, e]
    exact ⟨f, h, hw⟩
  · have hagain := ensureDirectory_again w q
    rw [he] at hagain
    obtain ⟨f'', hagain⟩ := hagain f' rfl
    have hsecond : w'.install p content = ⟨some (.directory q f''), w', [.notEnsured q]⟩ := by
      simp only [install, hq, hagain]
    rw [e]
    show ∃ f', (w'.install p content).failure = some f' ∧ (w'.install p content).workspace = w'
    rw [hsecond]
    exact ⟨_, rfl, rfl⟩
  · rw [e] at h
    have hw := writeFile_of_failure h
    rw [e]
    simp only [hw, install, hq, ensureDirectory_idem he]
    exact ⟨f, h, trivial⟩

end Workspace
end Stencil
