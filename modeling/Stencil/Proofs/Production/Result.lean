import Mathlib.Data.Finset.Max
import Mathlib.Data.Set.Card
import Stencil.Proofs.Production.Order
import Stencil.Proofs.Workspace.Change

/-!
# What a production leaves

- **`changed_produce`**: a production, with success or without, changes nothing but what putting files at the drafted
  paths can change.
- **`find_last`**: after a success each path leads to the text of the last draft for its place.
- **`produce_final_tree`**: the tree after a success, told from the drafts and the tree before.
-/

namespace Stencil

/-! ## The run -/

section Run

variable (dir : Path) (b : Bindings)

theorem changed_attempt (p : FilePattern) (ps : List FilePattern) (w : Workspace) :
    Workspace.Changed w (p.attempt dir b w) ((drafts dir b (p :: ps)).map (·.path)) := by
  rw [FilePattern.attempt]
  cases hd : p.draft dir b with
  | error f => exact Workspace.Changed.refl _ _
  | ok d =>
    rw [drafts_cons_ok hd]
    refine (Workspace.changed_install w d.path d.text.toUTF8).mono fun q hq => ?_
    rw [List.mem_singleton.mp hq]
    exact List.mem_cons_self

/-- **What a production changes**, with success or without: files at drafted paths, and directories that their parents
pass. -/
theorem changed_produce (ps : List FilePattern) (w : Workspace) :
    Workspace.Changed w (produce dir b ps w).workspace ((drafts dir b ps).map (·.path)) := by
  induction ps generalizing w with
  | nil => exact Workspace.Changed.refl _ _
  | cons p ps ih =>
    have hfirst := changed_attempt dir b p ps w
    cases hf : p.failure? dir b w with
    | some f =>
      rw [(produce_of_failure ps hf).2.2]
      exact hfirst
    | none =>
      obtain ⟨d, hd, hw⟩ := failure?_eq_none_iff.mp hf
      have hattempt : p.attempt dir b w = (d.write w).workspace := by rw [FilePattern.attempt, hd]
      rw [hattempt] at hfirst
      rw [(produce_cons ps hd hw).2.2]
      refine hfirst.trans ((ih _).mono ?_)
      rw [drafts_cons_ok hd]
      exact List.subset_cons_self _ _

end Run

/-! ## The last draft for a place -/

/-- The last of the chosen places ends their list. -/
theorem getLast?_filter_finRange {n : Nat} {chosen : Fin n → Bool} {j : Fin n} (hj : chosen j = true)
    (hlast : ∀ i, chosen i = true → i ≤ j) : ((List.finRange n).filter chosen).getLast? = some j := by
  have hmem : j ∈ (List.finRange n).filter chosen := List.mem_filter.mpr ⟨List.mem_finRange j, hj⟩
  have hsorted : ((List.finRange n).filter chosen).Pairwise (· < ·) := (List.pairwise_lt_finRange n).filter chosen
  obtain ⟨before, after, hsplit⟩ := List.append_of_mem hmem
  have hafter : after = [] := by
    -- what stands behind `j` is chosen and later
    rw [List.eq_nil_iff_forall_not_mem]
    intro i hi
    rw [hsplit] at hsorted
    have hlt : j < i := List.rel_of_pairwise_cons (List.pairwise_append.mp hsorted).2.1 hi
    have hchosen : i ∈ (List.finRange n).filter chosen := by
      rw [hsplit]
      exact List.mem_append_right _ (List.mem_cons_of_mem _ hi)
    exact absurd (hlast i (List.mem_filter.mp hchosen).2) (not_le_of_gt hlt)
  rw [hsplit, hafter, List.getLast?_concat]

namespace Workspace

variable {w : Workspace} {n : Nat} {d : Fin n → Draft}

theorem lastFor_ofFn {j : Fin n} {l : Location} (hj : w.target (d j).path = l)
    (hlast : ∀ i, w.target (d i).path = l → i ≤ j) : w.lastFor (List.ofFn d) l = some (d j) := by
  rw [List.ofFn_eq_map, lastFor_map, List.getLast?_map, getLast?_filter_finRange (decide_eq_true hj)]
  · rfl
  · exact fun i hi => hlast i (of_decide_eq_true hi)

/-- Path `j` is the last that leads to the place where path `i` leads. -/
def IsLast (w : Workspace) (paths : Fin n → Path) (i j : Fin n) : Prop :=
  w.SamePlace (paths i) (paths j) ∧ ∀ m, w.SamePlace (paths i) (paths m) → m ≤ j

variable (h : w.WritesAll (List.ofFn d))
include h

theorem samePlace_iff (i j : Fin n) :
    (w.writeAll (List.ofFn d)).SamePlace (d i).path (d j).path ↔ w.target (d i).path = w.target (d j).path := by
  have hmem : ∀ m, d m ∈ List.ofFn d := fun m => List.mem_ofFn.mpr ⟨m, rfl⟩
  constructor
  · rintro ⟨⟨l, node⟩, hi, hj⟩
    rw [← target_eq_of_here (here_writeAll h), ← target_eq_of_here (here_writeAll h), ← (find_eq hi).1, (find_eq hj).1]
  · exact samePlace_of_target_eq h (hmem i) (hmem j)

/-- After drafts were written, each path leads to the text of the last draft for its place. -/
theorem find_last (i : Fin n) :
    ∃ j, (w.writeAll (List.ofFn d)).IsLast (fun m => (d m).path) i j ∧
      (w.writeAll (List.ofFn d)).find (d i).path = .ok (w.target (d i).path, .file (d j).text.toUTF8) := by
  obtain ⟨j, hj, hlast⟩ := (Finset.univ.filter fun m => w.target (d m).path = w.target (d i).path).exists_max_image id
    ⟨i, by simp⟩
  simp only [Finset.mem_filter, Finset.mem_univ, true_and, id_eq] at hj hlast
  refine ⟨j, ⟨(samePlace_iff h i j).mpr hj.symm, fun m hm => hlast m ((samePlace_iff h i m).mp hm).symm⟩, ?_⟩
  apply find_writeAll h (List.mem_ofFn.mpr ⟨i, rfl⟩)
  rw [node?_writeAll h, lastFor_ofFn hj hlast]

/-- As many places hold the files as there are drafts, if no two paths lead to the same place. -/
theorem ncard_files (hapart : ∀ i j, (w.writeAll (List.ofFn d)).SamePlace (d i).path (d j).path → i = j) :
    {l | ∃ i content, (w.writeAll (List.ofFn d)).find (d i).path = .ok (l, .file content)}.ncard = n := by
  have hrange : {l | ∃ i content, (w.writeAll (List.ofFn d)).find (d i).path = .ok (l, .file content)} =
      Set.range fun i => w.target (d i).path := by
    ext l
    constructor
    · rintro ⟨i, content, hfind⟩
      refine ⟨i, ?_⟩
      rw [(find_eq hfind).1, target_eq_of_here (here_writeAll h)]
    · rintro ⟨i, rfl⟩
      obtain ⟨j, -, hfind⟩ := find_last h i
      exact ⟨i, _, hfind⟩
  have hinj : Function.Injective fun i => w.target (d i).path := by
    intro i j hij
    exact hapart i j ((samePlace_iff h i j).mpr hij)
  rw [hrange, Set.ncard_range_of_injective hinj, Nat.card_fin]

/-! What drafts change is told from their paths. -/

/-- A file that was put is found by one of the paths. -/
theorem find_of_put {l : Location} {node : Tree.Node}
    (hput : ∃ p ∈ (List.ofFn d).map (·.path), l = w.target p ∧ l ∉ w.approach p)
    (hnode : (w.writeAll (List.ofFn d)).tree.node? l = some node) :
    ∃ i, (w.writeAll (List.ofFn d)).find (d i).path = .ok (l, node) := by
  obtain ⟨p, hp, rfl, -⟩ := hput
  obtain ⟨e, he, rfl⟩ := List.mem_map.mp hp
  obtain ⟨i, rfl⟩ := List.mem_ofFn.mp he
  exact ⟨i, find_writeAll h he hnode⟩

section Change

variable (hc : Changed w (w.writeAll (List.ofFn d)) ((List.ofFn d).map (·.path))) {l : Location}
include hc

/-- A file that no path leads to stays as it was. -/
theorem file_stays {content : ByteArray} (hfile : w.tree.node? l = some (.file content))
    (hother : ∀ i node, (w.writeAll (List.ofFn d)).find (d i).path ≠ .ok (l, node)) :
    (w.writeAll (List.ofFn d)).tree.node? l = some (.file content) := by
  rcases hc.node?_eq l with e | ⟨⟨content', hfile'⟩, hput⟩ | ⟨hnone, -⟩
  · exact e.trans hfile
  · obtain ⟨i, hi⟩ := find_of_put h hput hfile'
    exact absurd hi (hother i _)
  · rw [hnone] at hfile
    cases hfile

/-- What is new is a file that a path leads to, or a directory that a path passes. -/
theorem file_or_passed {node : Tree.Node} (hnone : w.tree.node? l = none)
    (hnode : (w.writeAll (List.ofFn d)).tree.node? l = some node) :
    (∃ i, (w.writeAll (List.ofFn d)).find (d i).path = .ok (l, node)) ∨
      node = .directory ∧ ∃ i, (w.writeAll (List.ofFn d)).Passes (d i).path l := by
  rcases hc.node?_eq l with e | ⟨-, hput⟩ | ⟨-, p, hp, q, hq, hpasses⟩
  · rw [e, hnone] at hnode
    cases hnode
  · exact .inl (find_of_put h hput hnode)
  · obtain ⟨e, he, rfl⟩ := List.mem_map.mp hp
    obtain ⟨i, rfl⟩ := List.mem_ofFn.mp he
    rw [hpasses.node?_eq] at hnode
    exact .inr ⟨(Option.some.inj hnode).symm, i, hpasses.of_isUnder (Path.isParent_of_parent? hq).isUnder⟩

end Change

end Workspace

/-! ## The tree -/

/-- **The tree after a production.** Let a production answer the paths `written`. These are the paths of the drafts of
the patterns, in order. Each of them leads to a file that holds the text of the last draft for its place. All other
files are as they were, and no directory is gone. What is new is one of these files, or a directory that one of the
paths passes. If no two paths lead to the same place, there are as many files as patterns. -/
theorem produce_final_tree (k : Kit) (dir : Path) (b : Bindings) (w : Workspace) (written : List Path)
    (h : (k.produce dir b w).outcome = .ok written) :
    let w' := (k.produce dir b w).workspace
    ∃ d : Fin k.patterns.length → Draft,
      (∀ i, (k.patterns.get i).draft dir b = .ok (d i)) ∧
      written = (List.ofFn fun i => (d i).path) ∧
      (∀ i, ∃ j, w'.IsLast (fun m => (d m).path) i j ∧ ∃ l, w'.find (d i).path = .ok (l, .file (d j).text.toUTF8)) ∧
      (∀ l content, w.tree.node? l = some (.file content) → (∀ i n, w'.find (d i).path ≠ .ok (l, n)) →
        w'.tree.node? l = some (.file content)) ∧
      (∀ l, w.tree.node? l = some .directory → w'.tree.node? l = some .directory) ∧
      (∀ l n, w.tree.node? l = none → w'.tree.node? l = some n →
        (∃ i, w'.find (d i).path = .ok (l, n)) ∨ n = .directory ∧ ∃ i, w'.Passes (d i).path l) ∧
      ((∀ i j, w'.SamePlace (d i).path (d j).path → i = j) →
        {l | ∃ i content, w'.find (d i).path = .ok (l, .file content)}.ncard = k.patterns.length) := by
  have hfailure : (k.produce dir b w).failure = none := by
    cases hf : (k.produce dir b w).failure with
    | none => rfl
    | some f =>
      rw [outcome_eq_error hf] at h
      cases h
  obtain ⟨ds, hd, hw⟩ := drafted_of_produce hfailure
  have hchanged := changed_produce dir b k.patterns w
  rw [hd.drafts_eq] at hchanged
  obtain ⟨d, rfl, hdraft⟩ := hd.exists_ofFn
  obtain ⟨houtcome, hworkspace⟩ := produce_of_drafted hd hw
  rw [Kit.produce, houtcome] at h
  rw [hworkspace] at hchanged
  intro w'
  have hw' : w' = w.writeAll (List.ofFn d) := hworkspace
  rw [hw']
  refine ⟨d, hdraft, ?_, fun i => ?_, fun l content => Workspace.file_stays hw hchanged, hchanged.directory,
    fun l node => Workspace.file_or_passed hw hchanged, Workspace.ncard_files hw⟩
  · rw [← Except.ok.inj h, List.map_ofFn]
    rfl
  · obtain ⟨j, hj, hfind⟩ := Workspace.find_last hw i
    exact ⟨j, hj, _, hfind⟩

/-- The first and the last pattern are for one file, which was there before. -/
theorem produce_final_tree_twoForOne :
    let w := (Workspace.install (.fresh "work") ⟨"out/b"⟩ "old and longer".toUTF8).workspace
    let w' := (twoForOne.produce ⟨"out"⟩ .empty w).workspace
    (twoForOne.produce ⟨"out"⟩ .empty w).outcome = .ok [⟨"out/a/../b"⟩, ⟨"out/c"⟩, ⟨"out/b"⟩] ∧
      ∃ l, w'.find ⟨"out/a/../b"⟩ = .ok (l, .file "last".toUTF8) := by
  intro w w'
  have hfailure : (twoForOne.produce ⟨"out"⟩ .empty w).failure = none := by decide +kernel
  have hwritten : (twoForOne.produce ⟨"out"⟩ .empty w).written = [⟨"out/a/../b"⟩, ⟨"out/c"⟩, ⟨"out/b"⟩] := by
    decide +kernel
  have houtcome := outcome_eq_ok hfailure
  rw [hwritten] at houtcome
  obtain ⟨d, hdraft, -, hfile, -⟩ := produce_final_tree twoForOne ⟨"out"⟩ .empty w _ houtcome
  have hdrafts : d (0 : Fin 3) = ⟨⟨"out/a/../b"⟩, "first"⟩ ∧ d (2 : Fin 3) = ⟨⟨"out/b"⟩, "last"⟩ := by
    constructor
    · exact Except.ok.inj ((hdraft (0 : Fin 3)).symm.trans (by rfl))
    · exact Except.ok.inj ((hdraft (2 : Fin 3)).symm.trans (by rfl))
  obtain ⟨j, ⟨-, hlast⟩, l, hfind⟩ := hfile (0 : Fin 3)
  obtain ⟨j', -, l', hfind'⟩ := hfile (2 : Fin 3)
  have hsame : w'.SamePlace (d (0 : Fin 3)).path (d (2 : Fin 3)).path := by
    have hplaces : (w'.find ⟨"out/a/../b"⟩).toOption = (w'.find ⟨"out/b"⟩).toOption := by decide +kernel
    rw [hdrafts.1] at hfind
    rw [hdrafts.2] at hfind'
    rw [hfind, hfind'] at hplaces
    rw [hdrafts.1, hdrafts.2]
    exact ⟨_, hfind, hfind'.trans (congrArg Except.ok (Option.some.inj hplaces).symm)⟩
  have hj : j = (2 : Fin 3) := le_antisymm (Fin.le_last (n := 2) j) (hlast (2 : Fin 3) hsame)
  rw [hj, hdrafts.1, hdrafts.2] at hfind
  exact ⟨houtcome, l, hfind⟩

end Stencil
