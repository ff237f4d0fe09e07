import Mathlib.Data.List.FinRange
import Mathlib.Data.List.Sort
import Stencil.Proofs.Production.Prefix

/-!
# The order of the patterns

Once a kit can be produced, the order of its patterns matters only between patterns for the same file.

- **`filter_reordered`**: a reordering that keeps the order of the chosen places lists these as before.
- **`writeAll_perm`**: drafts in another order can be written as well, and leave the same if each location has the same
  last draft.
- **`produce_reorder`**: a reordered kit has the reordered paths and leaves the same workspace.
-/

namespace Stencil

/-! ## Reordered lists -/

section Reordered

variable {n : Nat} (σ : Equiv.Perm (Fin n))

/-- Places that are related keep their order. The reordering puts what was in place `σ i` into place `i`. -/
def KeepsOrder (related : Fin n → Fin n → Prop) : Prop := ∀ i j, i < j → related i j → σ.symm i < σ.symm j

variable {σ}

/-- A reordering that keeps the order of the chosen places lists these as before. -/
theorem filter_reordered {chosen : Fin n → Bool} (h : KeepsOrder σ fun i j => chosen i ∧ chosen j) :
    ((List.finRange n).map σ).filter chosen = (List.finRange n).filter chosen := by
  have hperm : (((List.finRange n).map σ).filter chosen).Perm ((List.finRange n).filter chosen) :=
    σ.map_finRange_perm.filter chosen
  have hsorted : ((List.finRange n).filter chosen).Pairwise (· < ·) := (List.pairwise_lt_finRange n).filter chosen
  have hsorted' : (((List.finRange n).map σ).filter chosen).Pairwise (· < ·) := by
    rw [List.pairwise_filter, List.pairwise_map]
    refine (List.pairwise_lt_finRange n).imp ?_
    intro i j hij hi hj
    -- two chosen places that changed sides would have kept their order
    rcases lt_trichotomy (σ i) (σ j) with hlt | heq | hgt
    · exact hlt
    · exact absurd (σ.injective heq) (ne_of_lt hij)
    · have hback := h (σ j) (σ i) hgt ⟨hj, hi⟩
      rw [σ.symm_apply_apply, σ.symm_apply_apply] at hback
      exact absurd hback (lt_asymm hij)
  exact hperm.eq_of_pairwise (fun i j _ _ hij hji => absurd hji (lt_asymm hij)) hsorted' hsorted

end Reordered

/-! ## Drafts in another order -/

namespace Workspace

variable {w : Workspace} {ds ds' : List Draft}

/-- Two paths lead to the same place of the workspace. -/
def SamePlace (w : Workspace) (p q : Path) : Prop := ∃ place, w.find p = .ok place ∧ w.find q = .ok place

theorem writesAll_perm (hperm : ds'.Perm ds) (h : w.WritesAll ds) : w.WritesAll ds' := by
  obtain ⟨hfits, hapart⟩ := writesAll_iff.mp h
  apply writesAll_iff.mpr
  constructor
  · intro d hd
    exact hfits d (hperm.subset hd)
  · intro d hd e he
    exact hapart d (hperm.subset hd) e (hperm.subset he)

/-- Drafts in another order leave the same if each location has the same last draft. -/
theorem writeAll_perm (hperm : ds'.Perm ds) (h : w.WritesAll ds) (hlast : ∀ l, w.lastFor ds' l = w.lastFor ds l) :
    w.writeAll ds' = w.writeAll ds := by
  have h' := writesAll_perm hperm h
  apply ext_node?
  · rw [here_writeAll h', here_writeAll h]
  · intro l
    have hneeded : (∃ d ∈ ds', l ∈ w.approach d.path) ↔ ∃ d ∈ ds, l ∈ w.approach d.path :=
      exists_congr fun d => and_congr_left fun _ => hperm.mem_iff
    rw [node?_writeAll h', node?_writeAll h, hlast]
    simp only [hneeded]

/-- Once drafts were written, paths of drafts for one location lead to the same place. -/
theorem samePlace_of_target_eq {d e : Draft} (h : w.WritesAll ds) (hd : d ∈ ds) (he : e ∈ ds)
    (htarget : w.target d.path = w.target e.path) : (w.writeAll ds).SamePlace d.path e.path := by
  obtain ⟨f, -, hfile⟩ := node?_target h hd
  have he' := find_writeAll h he (htarget ▸ hfile)
  rw [← htarget] at he'
  exact ⟨_, find_writeAll h hd hfile, he'⟩

/-- The last draft for a location is that of the last of its places. -/
theorem lastFor_map {n : Nat} (d : Fin n → Draft) (is : List (Fin n)) (l : Location) :
    w.lastFor (is.map d) l = ((is.filter fun i => decide (w.target (d i).path = l)).map d).getLast? := by
  rw [lastFor, List.filter_map]
  rfl

/-- The last drafts are the same if drafts for one location kept their order. -/
theorem lastFor_reordered {n : Nat} {σ : Equiv.Perm (Fin n)} {d : Fin n → Draft}
    (h : KeepsOrder σ fun i j => w.target (d i).path = w.target (d j).path) (l : Location) :
    w.lastFor (List.ofFn (d ∘ σ)) l = w.lastFor (List.ofFn d) l := by
  have hsame : ((List.finRange n).map σ).filter (fun i => decide (w.target (d i).path = l)) =
      (List.finRange n).filter fun i => decide (w.target (d i).path = l) := by
    apply filter_reordered
    rintro i j hij ⟨hi, hj⟩
    exact h i j hij ((of_decide_eq_true hi).trans (of_decide_eq_true hj).symm)
  rw [List.ofFn_eq_map, List.ofFn_eq_map, ← List.map_map, lastFor_map, lastFor_map, hsame]

end Workspace

/-! ## Kits in another order -/

/-- The kit with the patterns in another order: the one in place `σ i` comes to place `i`. -/
def Kit.reorder (k : Kit) (σ : Equiv.Perm (Fin k.patterns.length)) : Kit := ⟨List.ofFn fun i => k.patterns[σ i]⟩

variable {dir : Path} {b : Bindings} {w : Workspace}

/-- The drafts by the places of their patterns. -/
theorem Drafted.exists_ofFn {ps : List FilePattern} {ds : List Draft} (h : Drafted dir b ps ds) :
    ∃ d : Fin ps.length → Draft, ds = List.ofFn d ∧ ∀ i : Fin ps.length, ps[i].draft dir b = .ok (d i) := by
  have hlen := h.length_eq
  refine ⟨fun i => ds[i.cast hlen], ?_, fun i => ?_⟩
  · apply List.ext_getElem
    · rw [List.length_ofFn, hlen]
    · intro i hi hi'
      rw [List.getElem_ofFn]
      rfl
  · obtain ⟨p, hp, hdraft⟩ := h.draft_eq (List.getElem?_eq_getElem (i.cast hlen).isLt)
    have hget : ps[i] = p := Option.some.inj ((List.getElem?_eq_getElem i.isLt).symm.trans hp)
    rw [hget]
    exact hdraft

theorem drafted_reorder {k : Kit} {d : Fin k.patterns.length → Draft}
    (h : ∀ i : Fin k.patterns.length, k.patterns[i].draft dir b = .ok (d i)) (σ : Equiv.Perm (Fin k.patterns.length)) :
    Drafted dir b (k.reorder σ).patterns (List.ofFn (d ∘ σ)) := by
  rw [Drafted, Kit.reorder, List.map_ofFn, List.map_ofFn]
  exact congrArg List.ofFn (funext fun i => h (σ i))

/-- **Another order.** Let a kit be produced without failure. If its patterns are reordered, but patterns whose paths
lead to the same place keep their order, then the kit is again produced without failure, with the paths reordered in the
same way, and leaves the same workspace. -/
theorem produce_reorder (k : Kit) (dir : Path) (b : Bindings) (w : Workspace)
    (h : (k.produce dir b w).failure = none) :
    ∃ paths : Fin k.patterns.length → Path,
      (k.produce dir b w).outcome = .ok (List.ofFn paths) ∧
      (∀ i : Fin k.patterns.length, ∃ d, k.patterns[i].draft dir b = .ok d ∧ d.path = paths i) ∧
      ∀ σ : Equiv.Perm (Fin k.patterns.length),
        KeepsOrder σ (fun i j => (k.produce dir b w).workspace.SamePlace (paths i) (paths j)) →
        ((k.reorder σ).produce dir b w).outcome = .ok (List.ofFn fun i => paths (σ i)) ∧
        ((k.reorder σ).produce dir b w).workspace = (k.produce dir b w).workspace := by
  obtain ⟨ds, hd, hw⟩ := drafted_of_produce h
  obtain ⟨d, rfl, hdraft⟩ := hd.exists_ofFn
  obtain ⟨houtcome, hworkspace⟩ := produce_of_drafted hd hw
  refine ⟨fun i => (d i).path, ?_, fun i => ⟨d i, hdraft i, rfl⟩, fun σ hσ => ?_⟩
  · rw [Kit.produce, houtcome, List.map_ofFn]
    rfl
  · rw [Kit.produce, hworkspace] at hσ
    have hperm : (List.ofFn (d ∘ σ)).Perm (List.ofFn d) := σ.ofFn_comp_perm d
    have hkeeps : KeepsOrder σ fun i j => w.target (d i).path = w.target (d j).path := by
      intro i j hij htarget
      have hmem : ∀ m, d m ∈ List.ofFn d := fun m => List.mem_ofFn.mpr ⟨m, rfl⟩
      exact hσ i j hij (Workspace.samePlace_of_target_eq hw (hmem i) (hmem j) htarget)
    have hsame := Workspace.writeAll_perm hperm hw (Workspace.lastFor_reordered hkeeps)
    obtain ⟨houtcome', hworkspace'⟩ := produce_of_drafted (drafted_reorder hdraft σ) (Workspace.writesAll_perm hperm hw)
    refine ⟨?_, ?_⟩
    · rw [Kit.produce, houtcome', List.map_ofFn]
      rfl
    · rw [Kit.produce, Kit.produce, hworkspace', hsame, hworkspace]

/-- Two patterns for one file, and one for another between them. -/
def twoForOne : Kit where
  patterns := [
    ⟨.ofSegments [.literal "a/../b"], .ofSegments [.literal "first"]⟩,
    ⟨.ofSegments [.literal "c"], .ofSegments [.literal "other"]⟩,
    ⟨.ofSegments [.literal "b"], .ofSegments [.literal "last"]⟩]

theorem produce_reorder_twoForOne :
    let σ : Equiv.Perm (Fin twoForOne.patterns.length) := Equiv.swap (0 : Fin 3) (1 : Fin 3)
    let r := twoForOne.produce ⟨"out"⟩ .empty (.fresh "work")
    let r' := (twoForOne.reorder σ).produce ⟨"out"⟩ .empty (.fresh "work")
    r.failure = none ∧ r'.outcome = .ok [⟨"out/c"⟩, ⟨"out/a/../b"⟩, ⟨"out/b"⟩] ∧ r'.workspace = r.workspace := by
  intro σ r r'
  have hr : r.failure = none := by decide +kernel
  have hwritten : r.written = [⟨"out/a/../b"⟩, ⟨"out/c"⟩, ⟨"out/b"⟩] := by decide +kernel
  have hapart : (r.workspace.find ⟨"out/a/../b"⟩).toOption.map Prod.fst ≠
      (r.workspace.find ⟨"out/c"⟩).toOption.map Prod.fst := by decide +kernel
  have hswap : ∀ i j : Fin 3, i < j → i = 0 ∧ j = 1 ∨ σ.symm i < σ.symm j := by decide
  obtain ⟨paths, houtcome, -, hreorder⟩ := produce_reorder twoForOne ⟨"out"⟩ .empty (.fresh "work") hr
  have hpaths : [paths (0 : Fin 3), paths (1 : Fin 3), paths (2 : Fin 3)] =
      [⟨"out/a/../b"⟩, ⟨"out/c"⟩, ⟨"out/b"⟩] := by
    rw [← hwritten]
    exact (Except.ok.inj ((outcome_eq_ok hr).symm.trans houtcome)).symm
  obtain ⟨h₀, h₁, h₂⟩ : paths (0 : Fin 3) = ⟨"out/a/../b"⟩ ∧ paths (1 : Fin 3) = ⟨"out/c"⟩ ∧
      paths (2 : Fin 3) = ⟨"out/b"⟩ := by
    simpa using hpaths
  have hkeeps : KeepsOrder σ fun i j => r.workspace.SamePlace (paths i) (paths j) := by
    intro i j hij hsame
    rcases hswap i j hij with ⟨rfl, rfl⟩ | hlt
    · obtain ⟨place, hfirst, hsecond⟩ := hsame
      rw [h₀] at hfirst
      rw [h₁] at hsecond
      rw [hfirst, hsecond] at hapart
      exact absurd rfl hapart
    · exact hlt
  obtain ⟨houtcome', hworkspace⟩ := hreorder σ hkeeps
  refine ⟨hr, ?_, hworkspace⟩
  have hlist : (List.ofFn fun i => paths (σ i)) = [paths (1 : Fin 3), paths (0 : Fin 3), paths (2 : Fin 3)] := rfl
  rw [houtcome', hlist, h₀, h₁, h₂]

end Stencil
