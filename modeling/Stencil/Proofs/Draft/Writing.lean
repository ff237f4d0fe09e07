import Stencil.Session
import Stencil.Proofs.Production.Drafts
import Stencil.Proofs.Workspace.Change

/-!
# Writing one draft

A draft that is written changes one file, and a draft that cannot be written changes none.

- **`find_of_install`**, **`file_elsewhere_iff`**: after a success the path leads to the text; no other file differs.
- **`failure_of_install`**: a failure is about the directory if that could not be made, and else about the file.
- **`directory_of_install`**: a directory that is new is one that the parent of the path passes.
- **`write_touches_one_file`**: what a request to write a draft answers, and what it changes.
-/

namespace Stencil

namespace Workspace

variable {w : Workspace} {p : Path} {content : ByteArray} {l : Location}

/-! ## Success -/

theorem find_of_install (h : (w.install p content).failure = none) :
    (w.install p content).workspace.find p = .ok (w.target p, .file content) := by
  obtain ⟨hfits, hinst⟩ := fits_and_installed_of_install h
  have hnode : (w.install p content).workspace.tree.node? (w.target p) = some (.file content) :=
    (hinst.node?_eq _).trans (if_pos rfl)
  rw [← target_eq_of_here hinst.here_eq] at hnode ⊢
  refine find_of_approach hfits.writable (fun l hl => ?_) hnode
  rw [approach_eq_of_here hinst.here_eq] at hl
  have hne : l ≠ w.target p := fun e => hfits.apart (e ▸ hl)
  rw [hinst.node?_eq, if_neg hne, if_pos hl]

/-- Files elsewhere are the same: where a directory is made there was none. -/
theorem file_elsewhere_iff (h : (w.install p content).failure = none) (hl : l ≠ w.target p) (other : ByteArray) :
    (w.install p content).workspace.tree.node? l = some (.file other) ↔ w.tree.node? l = some (.file other) := by
  obtain ⟨hfits, hinst⟩ := fits_and_installed_of_install h
  rw [hinst.node?_eq, if_neg hl]
  by_cases ha : l ∈ w.approach p
  · rw [if_pos ha]
    rcases hfits.clear l ha with hnode | hnode <;> simp [hnode]
  · rw [if_neg ha]

/-! ## Failure -/

/-- A failure is about the parent if that cannot be made, and else about the path. -/
theorem failure_of_install {f : Failure} (h : (w.install p content).failure = some f) :
    ∃ fault, (∃ q, p.parent? = some q ∧ (w.ensureDirectory q).2 = some fault ∧ f = .directory q fault) ∨
      (∀ q, p.parent? = some q → (w.ensureDirectory q).2 = none) ∧ f = .file p fault := by
  have hfile : ∀ {w₁ : Workspace}, (w₁.writeFile p content).failure = some f → ∃ fault, f = .file p fault := by
    intro w₁ hf
    unfold writeFile at hf
    split at hf
    · next fault _ => exact ⟨fault, (Option.some.inj hf).symm⟩
    · cases hf
  rcases install_cases w p content with ⟨hnone, e⟩ | ⟨q, w', fault, hq, he, e⟩ | ⟨q, w', hq, he, e⟩
  · rw [e] at h
    obtain ⟨fault, hf⟩ := hfile h
    refine ⟨fault, .inr ⟨fun q hq => ?_, hf⟩⟩
    cases hnone.symm.trans hq
  · rw [e] at h
    exact ⟨fault, .inl ⟨q, hq, congrArg Prod.snd he, (Option.some.inj h).symm⟩⟩
  · rw [e] at h
    obtain ⟨fault, hf⟩ := hfile h
    refine ⟨fault, .inr ⟨fun q' hq' => ?_, hf⟩⟩
    obtain rfl := Option.some.inj (hq.symm.trans hq')
    exact congrArg Prod.snd he

/-! ## Directories -/

/-- A directory that is new stands where nothing stood, and the parent of the path passes it. -/
theorem directory_of_install (w : Workspace) (p : Path) (content : ByteArray)
    (hl : w.tree.node? l ≠ some .directory)
    (hl' : (w.install p content).workspace.tree.node? l = some .directory) :
    w.tree.node? l = none ∧ ∃ q, p.parent? = some q ∧ (w.install p content).workspace.Passes q l := by
  rcases (changed_install w p content).node?_eq l with e | ⟨⟨_, hfile⟩, -⟩ | ⟨hnone, p', hp', q, hq, hpasses⟩
  · exact absurd (e.symm.trans hl') hl
  · cases hfile.symm.trans hl'
  · rw [List.mem_singleton.mp hp'] at hq
    exact ⟨hnone, q, hq, hpasses⟩

end Workspace

/-- **One file or none.** Let a session be asked to write a draft. If it answers, it answers the path of the draft; the
path leads to a file that holds the text of the draft, and all other files are as they were. If it fails, all files are
as they were, and the failure is about the parent of the path if the parent could not be made, and about the path
otherwise. In either case no directory is gone, and a directory that is new stands where nothing stood and is passed by
the parent of the path. -/
theorem write_touches_one_file (s : Session) (d : Draft) :
    let w := s.workspace
    let r := s.step (.write d)
    let w' := r.1.workspace
    (∀ a, r.2.answer = .ok a → a = .written d.path ∧
      ∃ l, w'.find d.path = .ok (l, .file d.text.toUTF8) ∧
        ∀ m, m ≠ l → ∀ content, w'.tree.node? m = some (.file content) ↔ w.tree.node? m = some (.file content)) ∧
    (∀ e, r.2.answer = .error e →
      (∀ m content, w'.tree.node? m = some (.file content) ↔ w.tree.node? m = some (.file content)) ∧
      ∃ fault,
        (∃ q, d.path.parent? = some q ∧ (w.ensureDirectory q).2 = some fault ∧ e = .failure (.directory q fault)) ∨
        (∀ q, d.path.parent? = some q → (w.ensureDirectory q).2 = none) ∧ e = .failure (.file d.path fault)) ∧
    (∀ m, w.tree.node? m = some .directory → w'.tree.node? m = some .directory) ∧
    ∀ m, w.tree.node? m ≠ some .directory → w'.tree.node? m = some .directory →
      w.tree.node? m = none ∧ ∃ q, d.path.parent? = some q ∧ w'.Passes q m := by
  intro w r w'
  have hr : r = s.finish (d.write w).workspace (d.write w).failure (d.write w).log (.written d.path) := rfl
  have hw' : w' = (w.install d.path d.text.toUTF8).workspace := by
    show r.1.workspace = _
    rw [hr]
    cases (d.write w).failure <;> rfl
  rw [hw']
  refine ⟨fun a ha => ?_, fun e he => ?_, (Workspace.changed_install w d.path d.text.toUTF8).directory,
    fun m => Workspace.directory_of_install w d.path d.text.toUTF8⟩
  · cases hf : (d.write w).failure with
    | some f =>
      rw [hr, hf] at ha
      cases ha
    | none =>
      rw [hr, hf] at ha
      exact ⟨(Except.ok.inj ha).symm, _, Workspace.find_of_install hf,
        fun m hm content => Workspace.file_elsewhere_iff hf hm content⟩
  · cases hf : (d.write w).failure with
    | none =>
      rw [hr, hf] at he
      cases he
    | some f =>
      rw [hr, hf] at he
      obtain rfl := Except.error.inj he
      refine ⟨fun m content => (Workspace.grown_of_install hf).node?_file_iff, ?_⟩
      obtain ⟨fault, ⟨q, hq, hfault, rfl⟩ | ⟨hmade, rfl⟩⟩ := Workspace.failure_of_install hf
      · exact ⟨fault, .inl ⟨q, hq, hfault, rfl⟩⟩
      · exact ⟨fault, .inr ⟨hmade, rfl⟩⟩

end Stencil
