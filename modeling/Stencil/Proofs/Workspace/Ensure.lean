import Stencil.Proofs.Workspace.Make
import Stencil.Proofs.Workspace.Parent

/-!
# Making directories and those above them

`ensureDirectory` adds directories on the way to a path and nothing else (`ensureDirectory_grown`), also when it fails.

- **`directories_of_ensureDirectory`**: when it succeeds, the whole way is made of directories.
- **`ensureDirectory_of_makeable`**: it succeeds on every path without a dot at its end whose way is free of files.
- **`ensureDirectory_idem`**, **`ensureDirectory_again`**: a second time it makes nothing more, and fails if it failed.
-/

namespace Stencil
namespace Workspace

variable {w w' : Workspace} {p : Path}

/-! ## The parent -/

section Parent

variable {q : Path} (h : Path.IsParent q p)
include h

theorem origin_parent : w.origin q = w.origin p := by rw [origin, origin, h.isAbsolute_eq]

theorem way_parent_subset : w.way q ⊆ w.approach p := by
  obtain ⟨rest, ⟨hne, -⟩, hnames⟩ := h.names_eq
  intro l hl
  rw [way, origin_parent h] at hl
  rw [approach, hnames, List.dropLast_append_of_ne_nil hne, mem_trail_append]
  exact .inl hl

theorem short_parent (hs : Short (names p)) : Short (names q) := by
  obtain ⟨rest, -, hnames⟩ := h.names_eq
  intro n hn
  exact hs n (by rw [hnames]; exact List.mem_append_left _ hn)

/-- What a path is approached by is the way to its parent, unless the path ends in a dot. -/
theorem mem_approach_iff (w : Workspace) (hlast : (names p).getLast? ≠ some ".") (l : Location) :
    l ∈ w.approach p ↔ l ∈ w.way q := by
  obtain ⟨rest, ⟨hne, hdots⟩, hnames⟩ := h.names_eq
  have hdots' : ∀ n ∈ rest.dropLast, n = "." := by
    apply hdots
    intro e
    apply hlast
    rw [hnames, List.getLast?_append, e]
    rfl
  rw [way, origin_parent h]
  rw [approach, hnames, List.dropLast_append_of_ne_nil hne, mem_trail_append, mem_trail_dots hdots']
  constructor
  · rintro (hl | rfl)
    · exact hl
    · exact follow_mem_trail _ _
  · exact .inl

theorem isDirectory_parent (hq : q.text ≠ "") (hu : usable p = .ok ()) (hs : Short (names p))
    (hd : Directories w.tree (w.approach p)) : w.isDirectory q = true :=
  isDirectory_iff.mpr ⟨h.usable hu hq, short_parent h hs, hd.mono (way_parent_subset h)⟩

end Parent

/-! ## Directories and those above them -/

/-- `ensureDirectory` only makes directories on the way, whatever comes of it. -/
theorem ensureDirectory_grown (w : Workspace) (p : Path) : Grown w (w.ensureDirectory p).1 (w.way p) := by
  have hsub : ∀ {p q : Path}, p.parent? = some q → w.way q ⊆ w.way p := by
    intro p q hq l hl
    exact approach_subset_way (way_parent_subset (Path.isParent_of_parent? hq) hl)
  fun_induction ensureDirectory w p with
  | case1 => exact Grown.refl _ _
  | case2 p _ w' hmake => exact grown_of_makeDirectory hmake
  | case3 => exact Grown.refl _ _
  | case4 p _ _ q hq w' f heq ih =>
    rw [heq] at ih
    exact ih.mono (hsub hq)
  | case5 p _ _ q hq w' heq w'' hmake ih =>
    rw [heq] at ih
    have h := grown_of_makeDirectory hmake
    rw [way_eq_of_here ih.here_eq] at h
    exact (ih.mono (hsub hq)).trans h
  | case6 p _ _ q hq w' heq f hmake ih =>
    rw [heq] at ih
    exact ih.mono (hsub hq)
  | case7 => exact Grown.refl _ _

/-- When a directory has been ensured it is there, or the path was empty. -/
theorem isDirectory_of_ensureDirectory (h : w.ensureDirectory p = (w', none)) :
    p.text = "" ∨ w'.isDirectory p = true := by
  have forgiven : ∀ {u u' : Workspace} {f : Fault}, (u, if u.isDirectory p = true then none else some f) = (u', none) →
      u'.isDirectory p = true := by
    intro u u' f e
    obtain ⟨rfl, e⟩ := Prod.mk.inj e
    by_contra hd
    rw [if_neg hd] at e
    cases e
  rw [ensureDirectory] at h
  split at h
  · next hp => exact .inl hp
  · refine .inr ?_
    split at h
    · next w₁ hmake =>
      obtain ⟨rfl, -⟩ := Prod.mk.inj h
      exact isDirectory_of_makeDirectory hmake
    · split at h
      · cases h
      · next q hq =>
        split at h
        · cases h
        · next w₁ heq =>
          split at h
          · next w₂ hmake =>
            obtain ⟨rfl, -⟩ := Prod.mk.inj h
            exact isDirectory_of_makeDirectory hmake
          · exact forgiven h
    · exact forgiven h

theorem directories_of_ensureDirectory (h : w.ensureDirectory p = (w', none)) : Directories w'.tree (w'.way p) := by
  rcases isDirectory_of_ensureDirectory h with hp | hd
  · have hnames : names p = [] := by rw [Path.names_eq, Path.pieces, hp]; rfl
    rw [way, hnames]
    exact directories_origin
  · exact (isDirectory_iff.mp hd).2.2

/-- A directory that is there is left alone. -/
theorem ensureDirectory_of_isDirectory (h : w.isDirectory p = true) : w.ensureDirectory p = (w, none) := by
  obtain ⟨hu, hs, hd⟩ := isDirectory_iff.mp h
  have hmake := (makeDirectory_of_approach hu hs (hd.mono approach_subset_way)).1 _ (hd _ target_mem_way)
  rw [ensureDirectory, hmake]
  simp [h]

theorem ensureDirectory_idem (h : w.ensureDirectory p = (w', none)) : w'.ensureDirectory p = (w', none) := by
  rcases isDirectory_of_ensureDirectory h with he | hd
  · rw [ensureDirectory, if_pos he]
  · exact ensureDirectory_of_isDirectory hd

/-! ## Failing twice -/

theorem ensureDirectory_refused {f : Fault} (hp : p.text ≠ "") (hf : f ≠ .notFound)
    (hmake : w.makeDirectory p = .error f) :
    w.ensureDirectory p = (w, if w.isDirectory p then none else some f) := by
  rw [ensureDirectory, if_neg hp, hmake]
  cases f with
  | notFound => exact absurd rfl hf
  | _ => rfl

/-- Where something is missing, the parent comes first. -/
theorem ensureDirectory_missing {q : Path} (hp : p.text ≠ "") (hmake : w.makeDirectory p = .error .notFound)
    (hq : p.parent? = some q) :
    w.ensureDirectory p =
      match w.ensureDirectory q with
      | (w', some f) => (w', some f)
      | (w', none) =>
        match w'.makeDirectory p with
        | .ok w'' => (w'', none)
        | .error f => (w', if w'.isDirectory p then none else some f) := by
  rw [ensureDirectory, if_neg hp, hmake]
  simp only
  split
  · next hnone =>
    rw [hq] at hnone
    cases hnone
  · next q' hsome =>
    obtain rfl := Option.some.inj (hq.symm.trans hsome)
    rfl

/-- A path whose parent cannot be ensured is no directory, and cannot be made one. -/
theorem not_isDirectory_of_parent {q : Path} (h : Path.IsParent q p) {f : Fault}
    (hq : w.ensureDirectory q = (w', some f)) : w.isDirectory p = false ∧ ∀ w₁, w.makeDirectory p ≠ .ok w₁ := by
  have htext : q.text ≠ "" := by
    intro e
    rw [ensureDirectory, if_pos e] at hq
    cases hq
  have hno : ∀ hu : usable p = .ok (), Short (names p) → ¬ Directories w.tree (w.approach p) := by
    intro hu hs hd
    rw [ensureDirectory_of_isDirectory (isDirectory_parent h htext hu hs hd)] at hq
    cases hq
  constructor
  · apply Bool.eq_false_iff.mpr
    intro hd
    obtain ⟨hu, hs, hd⟩ := isDirectory_iff.mp hd
    exact hno hu hs (hd.mono approach_subset_way)
  · intro w₁ hmake
    obtain ⟨hu, hs, hd, -⟩ := of_makeDirectory hmake
    exact hno hu hs hd

/-- A directory whose parent cannot be ensured is not made, and nothing else is. -/
theorem ensureDirectory_of_parent_fails {q : Path} {f : Fault} (hp : p.text ≠ "") (hparent : p.parent? = some q)
    (hq : w.ensureDirectory q = (w, some f)) : ∃ f', w.ensureDirectory p = (w, some f') := by
  obtain ⟨hdir, hmake⟩ := not_isDirectory_of_parent (Path.isParent_of_parent? hparent) hq
  cases hm : w.makeDirectory p with
  | ok w₁ => exact absurd hm (hmake w₁)
  | error f' =>
    by_cases hf : f' = .notFound
    · subst hf
      exact ⟨f, by rw [ensureDirectory_missing hp hm hparent, hq]⟩
    · exact ⟨f', by rw [ensureDirectory_refused hp hf hm]; simp [hdir]⟩

/-- What a failure leaves behind does not help: the same directory fails again, and nothing more is made. -/
theorem ensureDirectory_again (w : Workspace) (p : Path) : ∀ f, (w.ensureDirectory p).2 = some f →
    ∃ f', (w.ensureDirectory p).1.ensureDirectory p = ((w.ensureDirectory p).1, some f') := by
  fun_induction ensureDirectory w p with
  | case1 =>
    intro f h
    cases h
  | case2 =>
    intro f h
    cases h
  | case3 p hp hmake hparent =>
    intro f _
    refine ⟨.notFound, ?_⟩
    rw [ensureDirectory, if_neg hp, hmake]
    simp only
    split
    · rfl
    · next q hsome =>
      rw [hparent] at hsome
      cases hsome
  | case4 p hp _ q hparent w' f heq ih =>
    intro _ _
    rw [heq] at ih
    obtain ⟨f', hq⟩ := ih f rfl
    exact ensureDirectory_of_parent_fails hp hparent hq
  | case5 =>
    intro f h
    cases h
  | case6 p hp _ q hparent w' heq f hmake ih =>
    intro f' h
    have hdir : w'.isDirectory p = false := by
      cases hd : w'.isDirectory p with
      | false => rfl
      | true => simp [hd] at h
    -- the parent is there by now, so the second time is like the end of the first
    have hq := ensureDirectory_idem heq
    refine ⟨f, ?_⟩
    by_cases hf : f = .notFound
    · subst hf
      rw [ensureDirectory_missing hp hmake hparent, hq]
      simp [hmake, hdir]
    · rw [ensureDirectory_refused hp hf hmake]
      simp [hdir]
  | case7 p hp f hf hmake =>
    intro f' h
    exact ⟨f', by rw [ensureDirectory_refused hp hf hmake]; exact Prod.ext rfl h⟩

/-! ## When directories can be made -/

theorem dots_of_parent?_none (h : p.parent? = none) : ∀ n ∈ names p, n = "." := by
  have hidle : Path.Idle p.pieces := by
    unfold Path.parent? at h
    split at h
    · next ha hd =>
      rw [Path.pieces_of_anchor_none ha]
      exact Path.idle_of_dropLastStep hd
    · cases h
    · cases h
    · next c _ ha hd =>
      rw [Path.pieces_eq_of_anchor ha]
      intro x hx
      rcases List.mem_cons.mp hx with rfl | hx
      · rcases Path.anchor_eq_some ha with ⟨_, hhead⟩ | ⟨_, hhead⟩ <;> rw [hhead] <;> rfl
      · exact Path.idle_of_dropLastStep hd x hx
    · cases h
    · cases h
    · cases h
  exact Path.namesOf_idle hidle

/-- A path that a directory can be made at: no file stands on the way, and it has no dot at its end. -/
structure Makeable (w : Workspace) (p : Path) : Prop where
  usable_ok : p.text ≠ "" → usable p = .ok ()
  short : Short (names p)
  clear : Clear w.tree (w.way p)
  last_name : (names p).getLast? = some "." → p.text = "."

theorem Makeable.parent {q : Path} (h : Makeable w p) (hp : p.text ≠ "") (hq : Path.IsParent q p) : Makeable w q where
  usable_ok hne := hq.usable (h.usable_ok hp) hne
  short := short_parent hq h.short
  clear := h.clear.mono fun _ hl => approach_subset_way (way_parent_subset hq hl)
  last_name := hq.last_name

/-- Where a directory is missing on the way, the path has a name that is no dot. -/
theorem Makeable.names_of_missing (h : Makeable w p) (hp : p.text ≠ "") (hmake : w.makeDirectory p = .error .notFound) :
    names p ≠ [] ∧ (names p).getLast? ≠ some "." := by
  have hno : ¬ Directories w.tree (w.approach p) := by
    intro hd
    rcases isDirectory_or_makeDirectory (h.usable_ok hp) h.short h.clear hd with ⟨e, _⟩ | ⟨w', e⟩
    · rw [hmake] at e
      cases e
    · rw [hmake] at e
      cases e
  constructor
  · intro hnil
    rw [approach, hnil] at hno
    exact hno directories_origin
  · intro hdot
    obtain ⟨text⟩ := p
    obtain rfl : text = "." := h.last_name hdot
    have hnil : (names ⟨"."⟩).dropLast = [] := by decide
    rw [approach, hnil] at hno
    exact hno directories_origin

/-- **Directories can be made** on every clear way to a path that has no dot at its end. -/
theorem ensureDirectory_of_makeable (w : Workspace) (p : Path) : Makeable w p → (w.ensureDirectory p).2 = none := by
  fun_induction ensureDirectory w p with
  | case1 => exact fun _ => rfl
  | case2 => exact fun _ => rfl
  | case3 p hp hmake hparent =>
    intro h
    obtain ⟨hne, hdot⟩ := h.names_of_missing hp hmake
    cases hname : (names p).getLast? with
    | none => exact absurd (List.getLast?_eq_none_iff.mp hname) hne
    | some name =>
      rw [hname, dots_of_parent?_none hparent name (List.mem_of_getLast? hname)] at hdot
      exact absurd rfl hdot
  | case4 p hp hmake q hparent w' f heq ih =>
    intro h
    rw [heq] at ih
    exact ih (h.parent hp (Path.isParent_of_parent? hparent))
  | case5 => exact fun _ => rfl
  | case6 p hp hmake q hparent w' heq f hmake' ih =>
    intro h
    obtain ⟨-, hdot⟩ := h.names_of_missing hp hmake
    have hgrown := ensureDirectory_grown w q
    rw [heq] at hgrown
    have hd : Directories w'.tree (w'.approach p) := (directories_of_ensureDirectory heq).mono fun l hl =>
      (mem_approach_iff (Path.isParent_of_parent? hparent) w' hdot l).mp hl
    have hc' : Clear w'.tree (w'.way p) := by
      intro l hl
      rw [way_eq_of_here hgrown.here_eq] at hl
      rcases hgrown.node?_eq l with e | ⟨-, -, e⟩
      · rw [e]
        exact h.clear l hl
      · exact .inr e
    rcases isDirectory_or_makeDirectory (h.usable_ok hp) h.short hc' hd with ⟨-, hdir⟩ | ⟨w'', h'⟩
    · simp [hdir]
    · rw [hmake'] at h'
      cases h'
  | case7 p hp f hf hmake =>
    intro h
    rcases makeDirectory_of_clear (h.usable_ok hp) h.short h.clear with hd | ⟨-, e⟩
    · rcases isDirectory_or_makeDirectory (h.usable_ok hp) h.short h.clear hd with ⟨-, hdir⟩ | ⟨w', e⟩
      · simp [hdir]
      · rw [hmake] at e
        cases e
    · rw [hmake] at e
      exact absurd (Except.error.inj e) hf

end Workspace
end Stencil
