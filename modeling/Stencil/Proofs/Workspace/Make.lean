import Stencil.Proofs.Workspace.Trail

/-!
# Making one directory

A path is followed up to its last name (`locate`); there a directory is made if nothing stands in its place.

- **`of_makeDirectory`**: what it took, and what it changed, when a directory was made.
- **`makeDirectory_of_approach`**: where the approach is made of directories, a directory is made unless something is
  there already.
- **`makeDirectory_of_clear`**: where no file stands in the way, the approach is made of directories or the attempt
  reports that something is missing.
-/

namespace Stencil
namespace Workspace

variable {w w' : Workspace} {p : Path}

/-! ## Up to the last name -/

/-- A proper last name in a directory that the path approaches. -/
theorem locate_eq_entry {init : List String} {name : String} (hu : usable p = .ok ()) (hn : names p = init ++ [name])
    (hdot : name ≠ "." ∧ name ≠ "..") (hs : Short init) (hd : Directories w.tree (w.approach p)) :
    ∃ l hl, w.locate p = .ok (.entry l name hl) ∧ name :: l = w.target p := by
  rw [approach, hn, List.dropLast_concat] at hd
  have hl := hd _ (follow_mem_trail init (w.origin p))
  refine ⟨_, hl, ?_, ?_⟩
  · unfold locate
    simp only [hu, hn, List.getLast?_concat, List.dropLast_concat, walk_of_directories hd hs]
    split
    · simp [hdot]
    · next hne => exact absurd hl hne
  · rw [target, hn, follow_append, follow, follow, next, if_neg hdot.1, if_neg hdot.2]

/-- Without a proper last name the path leads to a directory anyway. -/
theorem locate_eq_directory (hu : usable p = .ok ())
    (hn : ∀ name, (names p).getLast? = some name → name = "." ∨ name = "..") (hs : Short (names p))
    (hd : Directories w.tree (w.approach p)) :
    w.locate p = .ok .directory ∧ w.tree.node? (w.target p) = some .directory := by
  cases hlast : (names p).getLast? with
  | none =>
    have hnil : names p = [] := List.getLast?_eq_none_iff.mp hlast
    refine ⟨?_, ?_⟩
    · unfold locate
      simp only [hu, hlast]
    · rw [target, hnil]
      exact node?_origin
  | some name =>
    have hnames := names_eq_concat hlast
    have hl := hd _ (follow_mem_trail _ _)
    refine ⟨?_, ?_⟩
    · unfold locate
      simp only [hu, hlast, walk_of_directories hd hs.dropLast]
      split
      · simp [hn name hlast]
      · next hne => exact absurd hl hne
    · rw [target, hnames, follow_append, follow, follow, next]
      rcases hn name hlast with rfl | rfl
      · rw [if_pos rfl]
        exact hl
      · rw [if_neg (by decide), if_pos rfl]
        exact node?_tail hl

/-- What it takes for a path to stand for a name in a directory. -/
theorem of_locate_entry {l : Location} {name : String} {hl : w.tree.node? l = some .directory}
    (h : w.locate p = .ok (.entry l name hl)) :
    usable p = .ok () ∧ names p = (names p).dropLast ++ [name] ∧ (name ≠ "." ∧ name ≠ "..") ∧ Short (names p).dropLast ∧
      Directories w.tree (w.approach p) ∧ name :: l = w.target p := by
  unfold locate at h
  split at h
  · cases h
  · next hu =>
    split at h
    · cases h
    · next last hlast =>
      split at h
      · cases h
      · next l' hwalk =>
        split at h
        · next hl' =>
          split at h
          · cases h
          · next hdot =>
            simp only [Except.ok.injEq, Place.entry.injEq] at h
            obtain ⟨rfl, rfl⟩ := h
            have hnames := names_eq_concat hlast
            obtain ⟨rfl, hdirs, hs⟩ := of_walk hwalk hl'
            obtain ⟨h₁, h₂⟩ := not_or.mp hdot
            refine ⟨hu, hnames, ⟨h₁, h₂⟩, hs, hdirs, ?_⟩
            rw [target, hnames, follow_append, follow, follow, next, if_neg h₁, if_neg h₂, List.dropLast_concat]
        · cases h

theorem locate_notFound (hu : usable p = .ok ()) (hne : names p ≠ [])
    (hw : walk w.tree (w.origin p) (names p).dropLast = .error .notFound) : w.locate p = .error .notFound := by
  unfold locate
  cases hlast : (names p).getLast? with
  | none => exact absurd (List.getLast?_eq_none_iff.mp hlast) hne
  | some name => simp only [hu, hw]

/-- A path ends in a proper name, or leads to a directory anyway. -/
theorem dots_or_name (p : Path) : (∀ name, (names p).getLast? = some name → name = "." ∨ name = "..") ∨
    ∃ name, (names p).getLast? = some name ∧ name ≠ "." ∧ name ≠ ".." := by
  cases hlast : (names p).getLast? with
  | none => exact .inl fun name e => by cases e
  | some name =>
    by_cases hdots : name = "." ∨ name = ".."
    · refine .inl fun name' e => ?_
      obtain rfl := Option.some.inj e
      exact hdots
    · exact .inr ⟨name, rfl, not_or.mp hdots⟩

/-! ## One directory -/

theorem node?_put {l : Location} {name : String} {n : Tree.Node} {hl : w.tree.node? l = some .directory}
    {hn : w.tree.node? (name :: l) = some .directory → n = .directory} (m : Location) :
    (w.put l name n hl hn).tree.node? m = if m = name :: l then some n else w.tree.node? m :=
  Tree.node?_put w.tree l name n hl hn m

/-- Some locations that held nothing have become directories. -/
structure Grown (w w' : Workspace) (ls : List Location) : Prop where
  here_eq : w'.here = w.here
  node?_eq : ∀ l, w'.tree.node? l = w.tree.node? l ∨
    (l ∈ ls ∧ w.tree.node? l = none ∧ w'.tree.node? l = some .directory)

namespace Grown

variable {ls ks : List Location} {w'' : Workspace}

theorem refl (w : Workspace) (ls : List Location) : Grown w w ls := ⟨rfl, fun _ => .inl rfl⟩

theorem mono (h : Grown w w' ls) (hsub : ls ⊆ ks) : Grown w w' ks :=
  ⟨h.here_eq, fun l => (h.node?_eq l).imp_right fun ⟨hl, rest⟩ => ⟨hsub hl, rest⟩⟩

theorem trans (h : Grown w w' ls) (h' : Grown w' w'' ls) : Grown w w'' ls := by
  refine ⟨h'.here_eq.trans h.here_eq, fun l => ?_⟩
  rcases h.node?_eq l with e | ⟨hl, hnone, hdir⟩ <;> rcases h'.node?_eq l with e' | ⟨hl', hnone', hdir'⟩
  · exact .inl (e'.trans e)
  · exact .inr ⟨hl', e.symm.trans hnone', hdir'⟩
  · exact .inr ⟨hl, hnone, e'.trans hdir⟩
  · rw [hdir] at hnone'
    cases hnone'

theorem node?_directory (h : Grown w w' ls) {l : Location} (hl : w.tree.node? l = some .directory) :
    w'.tree.node? l = some .directory := by
  rcases h.node?_eq l with e | ⟨_, _, hdir⟩
  · exact e.trans hl
  · exact hdir

/-- Growing makes and removes no files. -/
theorem node?_file_iff (h : Grown w w' ls) {l : Location} {content : ByteArray} :
    w'.tree.node? l = some (.file content) ↔ w.tree.node? l = some (.file content) := by
  rcases h.node?_eq l with e | ⟨_, hnone, hdir⟩
  · rw [e]
  · rw [hnone, hdir]
    constructor <;> intro e <;> cases e

end Grown

/-- What a directory that was made has needed, and what it changes. -/
theorem of_makeDirectory (h : w.makeDirectory p = .ok w') :
    usable p = .ok () ∧ Short (names p) ∧ Directories w.tree (w.approach p) ∧ w.tree.node? (w.target p) = none ∧
      w'.here = w.here ∧ ∀ l, w'.tree.node? l = if l = w.target p then some .directory else w.tree.node? l := by
  unfold makeDirectory at h
  split at h
  · cases h
  · cases h
  · next l name hl hloc =>
    obtain ⟨hu, hnames, -, hs, hdirs, htarget⟩ := of_locate_entry hloc
    split at h
    · cases h
    · next hlen =>
      split at h
      · cases h
      · next hnone =>
        obtain rfl := Except.ok.inj h
        refine ⟨hu, ?_, hdirs, htarget ▸ hnone, rfl, fun m => ?_⟩
        · rw [hnames]
          exact hs.concat hlen
        · rw [← htarget]
          exact node?_put m

theorem grown_of_makeDirectory (h : w.makeDirectory p = .ok w') : Grown w w' (w.way p) := by
  obtain ⟨-, -, -, hnone, hhere, hnode⟩ := of_makeDirectory h
  refine ⟨hhere, fun l => ?_⟩
  rw [hnode]
  split
  · next e =>
    subst e
    exact .inr ⟨target_mem_way, hnone, rfl⟩
  · exact .inl rfl

/-- Where the approach is made of directories, a directory is made unless one is there already. -/
theorem makeDirectory_of_approach (hu : usable p = .ok ()) (hs : Short (names p))
    (hd : Directories w.tree (w.approach p)) :
    (∀ n, w.tree.node? (w.target p) = some n → w.makeDirectory p = .error .alreadyExists) ∧
      (w.tree.node? (w.target p) = none → ∃ w', w.makeDirectory p = .ok w') := by
  rcases dots_or_name p with hdots | ⟨name, hlast, hdot⟩
  · obtain ⟨hloc, htarget⟩ := locate_eq_directory hu hdots hs hd
    refine ⟨fun n _ => by rw [makeDirectory, hloc], fun hnone => ?_⟩
    rw [htarget] at hnone
    cases hnone
  · have hnames := names_eq_concat hlast
    obtain ⟨l, hl, hloc, htarget⟩ := locate_eq_entry hu hnames hdot hs.dropLast hd
    unfold makeDirectory
    rw [← htarget]
    simp only [hloc, if_neg (hs.not_lt hlast)]
    constructor
    · intro n hn
      simp only [hn]
    · intro hnone
      split
      · next hsome =>
        rw [hnone] at hsome
        cases hsome
      · exact ⟨_, rfl⟩

theorem isDirectory_of_makeDirectory (h : w.makeDirectory p = .ok w') : w'.isDirectory p = true := by
  have hgrown := grown_of_makeDirectory h
  obtain ⟨hu, hs, hdirs, -, -, hnode⟩ := of_makeDirectory h
  refine isDirectory_iff.mpr ⟨hu, hs, directories_way ?_ ?_⟩
  · intro l hl
    rw [approach_eq_of_here hgrown.here_eq] at hl
    exact hgrown.node?_directory (hdirs l hl)
  · rw [target_eq_of_here hgrown.here_eq, hnode, if_pos rfl]

/-- Where the approach is not made of directories yet, something is missing. -/
theorem makeDirectory_of_clear (hu : usable p = .ok ()) (hs : Short (names p)) (hc : Clear w.tree (w.way p)) :
    Directories w.tree (w.approach p) ∨ names p ≠ [] ∧ w.makeDirectory p = .error .notFound := by
  by_cases hne : names p = []
  · rw [approach, hne]
    exact .inl directories_origin
  · rcases walk_of_clear (hc.mono approach_subset_way) hs.dropLast node?_origin with hd | hw
    · exact .inl hd
    · exact .inr ⟨hne, by rw [makeDirectory, locate_notFound hu hne hw]⟩

/-- On a clear way that is approached by directories, the directory is made or is there. -/
theorem isDirectory_or_makeDirectory (hu : usable p = .ok ()) (hs : Short (names p)) (hc : Clear w.tree (w.way p))
    (hd : Directories w.tree (w.approach p)) :
    (w.makeDirectory p = .error .alreadyExists ∧ w.isDirectory p = true) ∨ ∃ w', w.makeDirectory p = .ok w' := by
  obtain ⟨hsome, hnone⟩ := makeDirectory_of_approach hu hs hd
  rcases hc _ target_mem_way with ht | ht
  · exact .inr (hnone ht)
  · exact .inl ⟨hsome _ ht, isDirectory_iff.mpr ⟨hu, hs, directories_way hd ht⟩⟩

end Workspace
end Stencil
