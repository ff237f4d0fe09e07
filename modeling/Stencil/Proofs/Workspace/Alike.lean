import Stencil.Proofs.Workspace.Install

/-!
# Workspaces of the same shape

Two workspaces are alike if they differ at most in what the files at some locations hold (`Alike`). Nothing that is done
to files and directories depends on what files hold: it comes to the same in both, and leaves them alike.

- **`walk_sameShape`**, **`locate_alike`**: paths are followed in the same way.
- **`alike_ensureDirectory`**: the same directories are made, with the same fault if there is one.
- **`alike_install`**: files put at the same path have the same result, whatever they hold.
-/

namespace Stencil

/-- The node is a directory. -/
def Tree.Node.isDirectory : Tree.Node → Bool
  | .directory => true
  | .file _ => false

namespace Tree

/-- The same locations are taken, by nodes of the same kind. -/
def SameShape (t t' : Tree) : Prop := ∀ l, (t'.node? l).map Node.isDirectory = (t.node? l).map Node.isDirectory

variable {t t' : Tree} {l : Location}

theorem isDirectory_map_iff {n : Option Node} : n.map Node.isDirectory = some true ↔ n = some .directory := by
  cases n with
  | none => simp
  | some n => cases n <;> simp [Node.isDirectory]

theorem SameShape.refl (t : Tree) : SameShape t t := fun _ => rfl

theorem SameShape.directory_iff (h : SameShape t t') : t'.node? l = some .directory ↔ t.node? l = some .directory := by
  rw [← isDirectory_map_iff, ← isDirectory_map_iff, h l]

theorem SameShape.none_iff (h : SameShape t t') : t'.node? l = none ↔ t.node? l = none := by
  rw [← Option.map_eq_none_iff (f := Node.isDirectory), ← Option.map_eq_none_iff (f := Node.isDirectory), h l]

end Tree

namespace Workspace

variable {w w' u u' : Workspace} {p : Path} {ls ks : List Location}

/-! ## Following paths -/

theorem step_elsewhere {t : Tree} {l : Location} (name : String) (h : t.node? l ≠ some .directory) :
    step t l name = .error .notADirectory := by
  unfold step
  split
  · contradiction
  · rfl

section SameShape

variable {t t' : Tree} (h : t.SameShape t')
include h

theorem step_sameShape (l : Location) (name : String) : step t' l name = step t l name := by
  by_cases hl : t.node? l = some .directory
  · rw [step_directory name hl, step_directory name (h.directory_iff.mpr hl)]
  · rw [step_elsewhere name hl, step_elsewhere name fun hl' => hl (h.directory_iff.mp hl')]

theorem walk_sameShape (names : List String) (l : Location) : walk t' l names = walk t l names := by
  induction names generalizing l with
  | nil => rfl
  | cons name rest ih =>
    rw [walk, walk, step_sameShape h]
    cases step t l name with
    | error f => rfl
    | ok l' => simp only [h.none_iff, ih]

theorem directories_sameShape : Directories t' ls ↔ Directories t ls :=
  forall_congr' fun _ => imp_congr_right fun _ => h.directory_iff

end SameShape

/-- Where the way to the last name can be walked, what stands there decides. -/
theorem locate_of_walk {last : String} {l : Location} (hu : usable p = .ok ()) (hlast : (names p).getLast? = some last)
    (hwalk : walk w.tree (w.origin p) (names p).dropLast = .ok l) :
    (∀ hl : w.tree.node? l = some .directory,
      w.locate p = if last = "." ∨ last = ".." then .ok .directory else .ok (.entry l last hl)) ∧
    (w.tree.node? l ≠ some .directory → w.locate p = .error .notADirectory) := by
  unfold locate
  simp only [hu, hlast, hwalk]
  split
  · next hl => exact ⟨fun _ => rfl, fun hne => absurd hl hne⟩
  · next hne => exact ⟨fun hl => absurd hl hne, fun _ => rfl⟩

/-- The workspaces differ at most in what the files at the locations hold. -/
structure Alike (w w' : Workspace) (ls : List Location) : Prop where
  here_eq : w'.here = w.here
  shape : w.tree.SameShape w'.tree
  node?_eq : ∀ l, l ∉ ls → w'.tree.node? l = w.tree.node? l

theorem Alike.refl (w : Workspace) : Alike w w [] := ⟨rfl, .refl _, fun _ _ => rfl⟩

theorem Alike.mono (h : Alike w w' ls) (hsub : ls ⊆ ks) : Alike w w' ks :=
  ⟨h.here_eq, h.shape, fun l hl => h.node?_eq l fun hmem => hl (hsub hmem)⟩

section Alike

variable (h : Alike w w' ls)
include h

theorem isDirectory_alike (p : Path) : w'.isDirectory p = w.isDirectory p := by
  rw [Bool.eq_iff_iff, isDirectory_iff, isDirectory_iff, way_eq_of_here h.here_eq, directories_sameShape h.shape]

theorem walk_alike (p : Path) (names : List String) :
    walk w'.tree (w'.origin p) names = walk w.tree (w.origin p) names := by
  rw [origin_eq_of_here h.here_eq, walk_sameShape h.shape]

/-- A path is followed up to its last name in the same way. -/
theorem locate_alike (p : Path) :
    (∃ f, w.locate p = .error f ∧ w'.locate p = .error f) ∨
    (w.locate p = .ok .directory ∧ w'.locate p = .ok .directory) ∨
    ∃ l name hl hl', w.locate p = .ok (.entry l name hl) ∧ w'.locate p = .ok (.entry l name hl') := by
  have hwalk' := walk_alike h p (names p).dropLast
  cases hu : usable p with
  | error f => exact .inl ⟨f, by simp only [locate, hu], by simp only [locate, hu]⟩
  | ok _ =>
    cases hlast : (names p).getLast? with
    | none => exact .inr (.inl ⟨by simp only [locate, hu, hlast], by simp only [locate, hu, hlast]⟩)
    | some last =>
      cases hwalk : walk w.tree (w.origin p) (names p).dropLast with
      | error f =>
        rw [hwalk] at hwalk'
        exact .inl ⟨f, by simp only [locate, hu, hlast, hwalk], by simp only [locate, hu, hlast, hwalk']⟩
      | ok l =>
        rw [hwalk] at hwalk'
        obtain ⟨hdir, helse⟩ := locate_of_walk hu hlast hwalk
        obtain ⟨hdir', helse'⟩ := locate_of_walk hu hlast hwalk'
        by_cases hl : w.tree.node? l = some .directory
        · have hl' := h.shape.directory_iff.mpr hl
          rw [hdir hl, hdir' hl']
          split
          · exact .inr (.inl ⟨rfl, rfl⟩)
          · exact .inr (.inr ⟨l, last, hl, hl', rfl, rfl⟩)
        · exact .inl ⟨.notADirectory, helse hl, helse' fun hl' => hl (h.shape.directory_iff.mp hl')⟩

/-! ## Making directories -/

/-- A node that is put at the same place in both, of the same kind. -/
theorem Alike.of_node? {m : Location} {n n' : Tree.Node} (hu : u.here = w.here) (hu' : u'.here = w'.here)
    (hnode : ∀ l, u.tree.node? l = if l = m then some n else w.tree.node? l)
    (hnode' : ∀ l, u'.tree.node? l = if l = m then some n' else w'.tree.node? l)
    (hkind : n'.isDirectory = n.isDirectory) (hsub : ls ⊆ ks) (hm : m ∉ ks → n' = n) : Alike u u' ks := by
  refine ⟨?_, fun l => ?_, fun l hl => ?_⟩
  · rw [hu, hu', h.here_eq]
  · rw [hnode, hnode']
    split
    · exact congrArg some hkind
    · exact h.shape l
  · rw [hnode, hnode']
    split
    · next e => exact congrArg some (hm (e ▸ hl))
    · exact h.node?_eq l fun hl' => hl (hsub hl')

/-- A directory is made in both, or in both refused for the same reason. -/
theorem alike_makeDirectory (p : Path) :
    (∃ f, w.makeDirectory p = .error f ∧ w'.makeDirectory p = .error f) ∨
    ∃ u u', w.makeDirectory p = .ok u ∧ w'.makeDirectory p = .ok u' ∧ Alike u u' ls := by
  rcases locate_alike h p with ⟨f, e, e'⟩ | ⟨e, e'⟩ | ⟨l, name, hl, hl', e, e'⟩
  · exact .inl ⟨f, by simp only [makeDirectory, e], by simp only [makeDirectory, e']⟩
  · exact .inl ⟨.alreadyExists, by simp only [makeDirectory, e], by simp only [makeDirectory, e']⟩
  · by_cases hlen : longestName < name.utf8ByteSize
    · exact .inl ⟨.nameTooLong, by simp only [makeDirectory, e, if_pos hlen],
        by simp only [makeDirectory, e', if_pos hlen]⟩
    · cases hn : w.tree.node? (name :: l) with
      | some n =>
        obtain ⟨n', hn'⟩ := Option.ne_none_iff_exists'.mp fun hnone =>
          Option.some_ne_none n (hn.symm.trans (h.shape.none_iff.mp hnone))
        exact .inl ⟨.alreadyExists, by simp only [makeDirectory, e, if_neg hlen, hn],
          by simp only [makeDirectory, e', if_neg hlen, hn']⟩
      | none =>
        have hn' := h.shape.none_iff.mpr hn
        have hmake : w.makeDirectory p = .ok (w.put l name .directory hl fun _ => rfl) := by
          simp only [makeDirectory, e, if_neg hlen, hn]
        have hmake' : w'.makeDirectory p = .ok (w'.put l name .directory hl' fun _ => rfl) := by
          simp only [makeDirectory, e', if_neg hlen, hn']
        refine .inr ⟨_, _, hmake, hmake', ?_⟩
        exact h.of_node? rfl rfl node?_put node?_put rfl (List.Subset.refl ls) fun _ => rfl

theorem makeDirectory_error_alike {f : Fault} (hmake : w.makeDirectory p = .error f) :
    w'.makeDirectory p = .error f := by
  rcases alike_makeDirectory h p with ⟨f', e, e'⟩ | ⟨u, u', e, -, -⟩
  · rw [e', ← e, hmake]
  · cases hmake.symm.trans e

theorem makeDirectory_ok_alike (hmake : w.makeDirectory p = .ok u) :
    ∃ u', w'.makeDirectory p = .ok u' ∧ Alike u u' ls := by
  rcases alike_makeDirectory h p with ⟨f, e, -⟩ | ⟨_, u', e, e', hu⟩
  · cases hmake.symm.trans e
  · obtain rfl := Except.ok.inj (hmake.symm.trans e)
    exact ⟨u', e', hu⟩

end Alike

/-- The same directories are made in both, and the same fault ends this if there is one. -/
theorem alike_ensureDirectory (h : Alike w w' ls) (p : Path) :
    ∃ u', w'.ensureDirectory p = (u', (w.ensureDirectory p).2) ∧ Alike (w.ensureDirectory p).1 u' ls := by
  fun_induction ensureDirectory w p generalizing w' with
  | case1 p hp => exact ⟨w', by rw [ensureDirectory, if_pos hp], h⟩
  | case2 p hp u hmake =>
    obtain ⟨u', hmake', hu⟩ := makeDirectory_ok_alike h hmake
    exact ⟨u', by rw [ensureDirectory, if_neg hp, hmake'], hu⟩
  | case3 p hp hmake hq =>
    refine ⟨w', ?_, h⟩
    rw [ensureDirectory, if_neg hp, makeDirectory_error_alike h hmake]
    simp only
    split
    · rfl
    · next q hsome => cases hq.symm.trans hsome
  | case4 p hp hmake q hq u f heq ih =>
    obtain ⟨u', he, hu⟩ := ih h
    rw [heq] at he hu
    exact ⟨u', by rw [ensureDirectory_missing hp (makeDirectory_error_alike h hmake) hq, he], hu⟩
  | case5 p hp hmake q hq u heq u₁ hmake₁ ih =>
    obtain ⟨u', he, hu⟩ := ih h
    rw [heq] at he hu
    obtain ⟨u₁', hmake₁', hu₁⟩ := makeDirectory_ok_alike hu hmake₁
    exact ⟨u₁', by rw [ensureDirectory_missing hp (makeDirectory_error_alike h hmake) hq, he]; simp only [hmake₁'], hu₁⟩
  | case6 p hp hmake q hq u heq f hmake₁ ih =>
    obtain ⟨u', he, hu⟩ := ih h
    rw [heq] at he hu
    refine ⟨u', ?_, hu⟩
    rw [ensureDirectory_missing hp (makeDirectory_error_alike h hmake) hq, he]
    simp only [makeDirectory_error_alike hu hmake₁, isDirectory_alike hu]
  | case7 p hp f hf hmake =>
    refine ⟨w', ?_, h⟩
    rw [ensureDirectory_refused hp hf (makeDirectory_error_alike h hmake), isDirectory_alike h]

/-! ## Writing files -/

section Alike

variable (h : Alike w w' ls) (p : Path) (content content' : ByteArray)
include h

/-- A file is written in both, or in both refused for the same reason, whatever it is to hold. -/
theorem alike_write :
    (∃ f, w.write p content = .error f ∧ w'.write p content' = .error f) ∨
    ∃ u u', w.write p content = .ok u ∧ w'.write p content' = .ok u' ∧ Alike u u' (w.target p :: ls) := by
  rcases locate_alike h p with ⟨f, e, e'⟩ | ⟨e, e'⟩ | ⟨l, name, hl, hl', e, e'⟩
  · exact .inl ⟨f, by simp only [write, e], by simp only [write, e']⟩
  · exact .inl ⟨.isADirectory, by simp only [write, e], by simp only [write, e']⟩
  · by_cases hslash : p.endsInSlash = true
    · exact .inl ⟨.isADirectory, by simp only [write, e, if_pos hslash], by simp only [write, e', if_pos hslash]⟩
    by_cases hlen : longestName < name.utf8ByteSize
    · exact .inl ⟨.nameTooLong, by simp only [write, e, if_neg hslash, if_pos hlen],
        by simp only [write, e', if_neg hslash, if_pos hlen]⟩
    by_cases hdir : w.tree.node? (name :: l) = some .directory
    · have hdir' := h.shape.directory_iff.mpr hdir
      exact .inl ⟨.isADirectory, by simp only [write, e, if_neg hslash, if_neg hlen, dif_pos hdir],
        by simp only [write, e', if_neg hslash, if_neg hlen, dif_pos hdir']⟩
    · have hdir' := mt h.shape.directory_iff.mp hdir
      obtain ⟨-, -, -, -, -, htarget⟩ := of_locate_entry e
      have hwrite : w.write p content = .ok (w.put l name (.file content) hl fun e => absurd e hdir) := by
        simp only [write, e, if_neg hslash, if_neg hlen, dif_neg hdir]
      have hwrite' : w'.write p content' = .ok (w'.put l name (.file content') hl' fun e => absurd e hdir') := by
        simp only [write, e', if_neg hslash, if_neg hlen, dif_neg hdir']
      refine .inr ⟨_, _, hwrite, hwrite', ?_⟩
      rw [← htarget]
      exact h.of_node? rfl rfl node?_put node?_put rfl (List.subset_cons_self _ ls) (absurd List.mem_cons_self)

theorem alike_writeFile :
    (w'.writeFile p content').failure = (w.writeFile p content).failure ∧
    (w'.writeFile p content').log = (w.writeFile p content).log ∧
    ∀ ks, ls ⊆ ks → ((w.writeFile p content).failure = none → w.target p ∈ ks) →
      Alike (w.writeFile p content).workspace (w'.writeFile p content').workspace ks := by
  unfold writeFile
  rcases alike_write h p content content' with ⟨f, e, e'⟩ | ⟨u, u', e, e', hu⟩
  · rw [e, e']
    exact ⟨rfl, rfl, fun ks hsub _ => h.mono hsub⟩
  · rw [e, e']
    exact ⟨rfl, rfl, fun ks hsub hp => hu.mono (List.cons_subset.mpr ⟨hp rfl, hsub⟩)⟩

/-- **Putting a file** has the same result in both, whatever it is to hold. They differ at its target by then, if it is
put. -/
theorem alike_install :
    (w'.install p content').failure = (w.install p content).failure ∧
    (w'.install p content').log = (w.install p content).log ∧
    ∀ ks, ls ⊆ ks → ((w.install p content).failure = none → w.target p ∈ ks) →
      Alike (w.install p content).workspace (w'.install p content').workspace ks := by
  cases hq : p.parent? with
  | none =>
    simp only [install, hq]
    exact alike_writeFile h p content content'
  | some q =>
    obtain ⟨u', he', hu⟩ := alike_ensureDirectory h q
    cases he : w.ensureDirectory q with
    | mk u fault =>
      rw [he] at he' hu
      cases fault with
      | some f =>
        simp only [install, hq, he, he']
        exact ⟨trivial, trivial, fun ks hsub _ => hu.mono hsub⟩
      | none =>
        obtain ⟨hfailure, hlog, halike⟩ := alike_writeFile hu p content content'
        have hhere : u.here = w.here := by
          have hgrown := ensureDirectory_grown w q
          rw [he] at hgrown
          exact hgrown.here_eq
        rw [target_eq_of_here hhere] at halike
        simp only [install, hq, he, he']
        exact ⟨hfailure, congrArg _ hlog, halike⟩

end Alike
end Workspace
end Stencil
