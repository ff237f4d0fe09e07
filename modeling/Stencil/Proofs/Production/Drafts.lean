import Stencil.Proofs.Workspace.Install

/-!
# Drafts written one after another

Whether all drafts of a list can be written, and what they leave, does not depend on the way there:

- **`writesAll_iff`**: they can be written exactly when each fits and no file is to be where another draft needs a
  directory (`FitTogether`).
- **`node?_writeAll`**: afterwards each file holds the text of the last draft for it, what the drafts are approached by
  are directories, and all else is as it was.
- **`writesAll_again`**, **`writeAll_again`**: even if directories were added meanwhile, they can be written once more,
  and change nothing.
-/

namespace Stencil

namespace Workspace

variable {w w' : Workspace}

/-- The workspace once the drafts were written one after another. -/
def writeAll (w : Workspace) : List Draft → Workspace
  | [] => w
  | d :: ds => (d.write w).workspace.writeAll ds

/-- Each of the drafts can be written once those before it were. -/
def WritesAll (w : Workspace) : List Draft → Prop
  | [] => True
  | d :: ds => (d.write w).failure = none ∧ (d.write w).workspace.WritesAll ds

/-- There is room for all the drafts. -/
structure FitTogether (w : Workspace) (ds : List Draft) : Prop where
  fits : ∀ d ∈ ds, w.Fits d.path
  apart : ∀ d ∈ ds, ∀ e ∈ ds, w.target d.path ∉ w.approach e.path

/-- The last of the drafts whose path leads to the location. -/
def lastFor (w : Workspace) (ds : List Draft) (l : Location) : Option Draft :=
  (ds.filter (w.target ·.path = l)).getLast?

theorem ext_node? (hhere : w.here = w'.here) (h : ∀ l, w.tree.node? l = w'.tree.node? l) : w = w' := by
  obtain ⟨t, here, _⟩ := w
  obtain ⟨t', here', _⟩ := w'
  obtain rfl : here = here' := hhere
  obtain rfl : t = t' := Tree.ext_node? h
  rfl

theorem lastFor_eq_of_here (h : w'.here = w.here) (ds : List Draft) (l : Location) :
    w'.lastFor ds l = w.lastFor ds l := by
  simp only [lastFor, target_eq_of_here h]

/-! ## One more draft -/

section Step

variable {p q : Path} {content : ByteArray} (hp : w.Fits p) (h : Installed w w' p content)
include hp h

/-- A file that was put is in the way of another exactly where one needs a directory for the other. -/
theorem fits_installed_iff : w'.Fits q ↔ w.Fits q ∧ w.target p ∉ w.approach q ∧ w.target q ∉ w.approach p := by
  have htarget := target_eq_of_here h.here_eq
  have happroach := approach_eq_of_here h.here_eq
  constructor
  · intro hq
    have hpq : w.target p ∉ w.approach q := by
      intro hl
      rw [← happroach] at hl
      have hc := hq.clear _ hl
      rw [h.node?_eq, if_pos rfl] at hc
      rcases hc with hc | hc <;> cases hc
    have hqp : w.target q ∉ w.approach p := by
      intro hl
      apply hq.vacant
      have hne : w.target q ≠ w.target p := fun e => hp.apart (e ▸ hl)
      rw [htarget, h.node?_eq, if_neg hne, if_pos hl]
    refine ⟨⟨hq.writable, fun l hl => ?_, fun hdir => ?_, ?_⟩, hpq, hqp⟩
    · by_cases hl' : l ∈ w.approach p
      · exact hp.clear l hl'
      · have hne : l ≠ w.target p := fun e => hpq (e ▸ hl)
        have hc := hq.clear l (happroach q ▸ hl)
        rwa [h.node?_eq, if_neg hne, if_neg hl'] at hc
    · by_cases he : w.target q = w.target p
      · exact hp.vacant (he ▸ hdir)
      · apply hq.vacant
        rw [htarget, h.node?_eq, if_neg he, if_neg hqp, hdir]
    · rw [← htarget, ← happroach]
      exact hq.apart
  · rintro ⟨hq, hpq, hqp⟩
    refine ⟨hq.writable, fun l hl => ?_, ?_, ?_⟩
    · rw [happroach] at hl
      have hne : l ≠ w.target p := fun e => hpq (e ▸ hl)
      rw [h.node?_eq, if_neg hne]
      split
      · exact .inr rfl
      · exact hq.clear l hl
    · rw [htarget, h.node?_eq, if_neg hqp]
      split
      · intro e
        cases e
      · exact hq.vacant
    · rw [htarget, happroach]
      exact hq.apart

end Step

theorem fitTogether_cons_iff {d : Draft} {ds : List Draft} {content : ByteArray} (hd : w.Fits d.path)
    (h : Installed w w' d.path content) : w.FitTogether (d :: ds) ↔ w'.FitTogether ds := by
  have htarget := target_eq_of_here h.here_eq
  have happroach := approach_eq_of_here h.here_eq
  constructor
  · intro hds
    refine ⟨fun e he => ?_, fun e he f hf => ?_⟩
    · have he' := List.mem_cons_of_mem d he
      exact (fits_installed_iff hd h).mpr
        ⟨hds.fits e he', hds.apart d List.mem_cons_self e he', hds.apart e he' d List.mem_cons_self⟩
    · rw [htarget, happroach]
      exact hds.apart e (List.mem_cons_of_mem d he) f (List.mem_cons_of_mem d hf)
  · intro hds
    have hfits : ∀ e ∈ ds, w.Fits e.path ∧ w.target d.path ∉ w.approach e.path ∧ w.target e.path ∉ w.approach d.path :=
      fun e he => (fits_installed_iff hd h).mp (hds.fits e he)
    refine ⟨fun e he => ?_, fun e he f hf => ?_⟩
    · rcases List.mem_cons.mp he with rfl | he
      · exact hd
      · exact (hfits e he).1
    · rcases List.mem_cons.mp he with rfl | he' <;> rcases List.mem_cons.mp hf with rfl | hf'
      · exact hd.apart
      · exact (hfits f hf').2.1
      · exact (hfits e he').2.2
      · rw [← htarget, ← happroach]
        exact hds.apart e he' f hf'

/-- **When drafts can be written.** The drafts can be written one after another exactly when there is room for all. -/
theorem writesAll_iff {ds : List Draft} : w.WritesAll ds ↔ w.FitTogether ds := by
  induction ds generalizing w with
  | nil => exact ⟨fun _ => ⟨fun d hd => absurd hd List.not_mem_nil, fun d hd => absurd hd List.not_mem_nil⟩,
      fun _ => trivial⟩
  | cons d ds ih =>
    constructor
    · rintro ⟨hd, hds⟩
      exact (fitTogether_cons_iff (install_failure_iff.mp hd) (installed_of_install hd)).mpr (ih.mp hds)
    · intro h
      have hfits := h.fits d List.mem_cons_self
      have hd : (d.write w).failure = none := install_of_fits hfits
      exact ⟨hd, ih.mpr ((fitTogether_cons_iff hfits (installed_of_install hd)).mp h)⟩

/-! ## What drafts leave -/

theorem here_writeAll {ds : List Draft} (h : w.WritesAll ds) : (w.writeAll ds).here = w.here := by
  induction ds generalizing w with
  | nil => rfl
  | cons d ds ih => exact (ih h.2).trans (installed_of_install h.1).here_eq

theorem lastFor_cons (d : Draft) (ds : List Draft) (l : Location) :
    w.lastFor (d :: ds) l = (w.lastFor ds l).or (if w.target d.path = l then some d else none) := by
  rw [lastFor, lastFor, List.filter_cons]
  by_cases hl : w.target d.path = l
  · simp only [hl, decide_true, if_true]
    rw [List.getLast?_cons]
    cases (ds.filter (w.target ·.path = l)).getLast? <;> rfl
  · simp only [hl, decide_false, Bool.false_eq_true, if_false, Option.or_none]

theorem lastFor_eq_some {d : Draft} {ds : List Draft} {l : Location} (h : w.lastFor ds l = some d) :
    d ∈ ds ∧ w.target d.path = l := by
  have hm := List.mem_filter.mp (List.mem_of_getLast? h)
  exact ⟨hm.1, of_decide_eq_true hm.2⟩

theorem lastFor_ne_none {d : Draft} {ds : List Draft} (h : d ∈ ds) : w.lastFor ds (w.target d.path) ≠ none := by
  intro hnone
  have hnil := List.getLast?_eq_none_iff.mp hnone
  have hmem : d ∈ ds.filter (w.target ·.path = w.target d.path) := List.mem_filter.mpr ⟨h, decide_eq_true rfl⟩
  rw [hnil] at hmem
  cases hmem

/-- **What drafts leave.** The last draft for a location decides what it holds. -/
theorem node?_writeAll {ds : List Draft} (h : w.WritesAll ds) (l : Location) :
    (w.writeAll ds).tree.node? l =
      match w.lastFor ds l with
      | some d => some (.file d.text.toUTF8)
      | none => if ∃ d ∈ ds, l ∈ w.approach d.path then some .directory else w.tree.node? l := by
  induction ds generalizing w with
  | nil => simp [writeAll, lastFor]
  | cons d ds ih =>
    have hinst : Installed w (d.write w).workspace d.path d.text.toUTF8 := installed_of_install h.1
    have htogether := writesAll_iff.mp h
    rw [writeAll, ih h.2, lastFor_eq_of_here hinst.here_eq, lastFor_cons]
    cases hlast : w.lastFor ds l with
    | some e => rfl
    | none =>
      simp only [approach_eq_of_here hinst.here_eq, Option.none_or]
      by_cases hl : w.target d.path = l
      · -- no later draft needs a directory where this file is
        have hno : ¬ ∃ e ∈ ds, l ∈ w.approach e.path := by
          rintro ⟨e, he, hle⟩
          exact htogether.apart d List.mem_cons_self e (List.mem_cons_of_mem d he) (hl ▸ hle)
        rw [if_neg hno, if_pos hl]
        exact (hinst.node?_eq l).trans (if_pos hl.symm)
      · rw [if_neg hl]
        have hnode := (hinst.node?_eq l).trans (if_neg (Ne.symm hl))
        simp only [List.mem_cons, exists_eq_or_imp]
        by_cases hla : l ∈ w.approach d.path
        · rw [if_pos (Or.inl hla)]
          split
          · rfl
          · exact hnode.trans (if_pos hla)
        · simp only [hla, false_or]
          split
          · rfl
          · exact hnode.trans (if_neg hla)

theorem node?_target {d : Draft} {ds : List Draft} (h : w.WritesAll ds) (hd : d ∈ ds) :
    ∃ e ∈ ds, (w.writeAll ds).tree.node? (w.target d.path) = some (.file e.text.toUTF8) := by
  rw [node?_writeAll h]
  cases hlast : w.lastFor ds (w.target d.path) with
  | none => exact absurd hlast (lastFor_ne_none hd)
  | some e => exact ⟨e, (lastFor_eq_some hlast).1, rfl⟩

theorem node?_approach {d : Draft} {ds : List Draft} (h : w.WritesAll ds) (hd : d ∈ ds) {l : Location}
    (hl : l ∈ w.approach d.path) : (w.writeAll ds).tree.node? l = some .directory := by
  rw [node?_writeAll h]
  cases hlast : w.lastFor ds l with
  | none => exact if_pos ⟨d, hd, hl⟩
  | some e =>
    obtain ⟨he, rfl⟩ := lastFor_eq_some hlast
    exact absurd hl ((writesAll_iff.mp h).apart e he d hd)

/-- What stands at the target of a draft is what its path leads to. -/
theorem find_writeAll {d : Draft} {ds : List Draft} {n : Tree.Node} (h : w.WritesAll ds) (hd : d ∈ ds)
    (hn : (w.writeAll ds).tree.node? (w.target d.path) = some n) :
    (w.writeAll ds).find d.path = .ok (w.target d.path, n) := by
  have hhere := here_writeAll h
  rw [← target_eq_of_here hhere] at hn ⊢
  apply find_of_approach ((writesAll_iff.mp h).fits d hd).writable _ hn
  intro l hl
  rw [approach_eq_of_here hhere] at hl
  exact node?_approach h hd hl

/-! ## Writing again -/

section Again

variable {ds : List Draft} {ls : List Location} (h : w.WritesAll ds) (hg : Grown (w.writeAll ds) w' ls)
include h hg

theorem here_again : w'.here = w.here := hg.here_eq.trans (here_writeAll h)

/-- Directories that drafts needed stay. -/
theorem directories_again {d : Draft} (hd : d ∈ ds) : Directories w'.tree (w'.approach d.path) := by
  intro l hl
  rw [approach_eq_of_here (here_again h hg)] at hl
  exact hg.node?_directory (node?_approach h hd hl)

/-- Their paths lead to files, even after directories were added. -/
theorem find_again {d : Draft} (hd : d ∈ ds) : ∃ content, w'.find d.path = .ok (w.target d.path, .file content) := by
  obtain ⟨e, -, hfile⟩ := node?_target h hd
  refine ⟨e.text.toUTF8, ?_⟩
  have hfile' := hg.node?_file_iff.mpr hfile
  rw [← target_eq_of_here (here_again h hg)] at hfile' ⊢
  exact find_of_approach ((writesAll_iff.mp h).fits d hd).writable (directories_again h hg hd) hfile'

/-- Drafts that were written can be written once more, even after directories were added. -/
theorem writesAll_again : w'.WritesAll ds := by
  have htogether := writesAll_iff.mp h
  have htarget := target_eq_of_here (here_again h hg)
  have happroach := approach_eq_of_here (here_again h hg)
  apply writesAll_iff.mpr
  constructor
  · intro d hd
    refine ⟨(htogether.fits d hd).writable, fun l hl => .inr (directories_again h hg hd l hl), ?_, ?_⟩
    · obtain ⟨e, -, hfile⟩ := node?_target h hd
      rw [htarget, hg.node?_file_iff.mpr hfile]
      intro hdir
      cases hdir
    · rw [htarget, happroach]
      exact htogether.apart d hd d hd
  · intro d hd e he
    rw [htarget, happroach]
    exact htogether.apart d hd e he

/-- **Writing again.** Drafts that are written once more change nothing. -/
theorem writeAll_again : w'.writeAll ds = w' := by
  have hwrites := writesAll_again h hg
  apply ext_node? (here_writeAll hwrites)
  intro l
  rw [node?_writeAll hwrites, lastFor_eq_of_here (here_again h hg)]
  cases hlast : w.lastFor ds l with
  | some e =>
    have hfile : (w.writeAll ds).tree.node? l = some (.file e.text.toUTF8) := by rw [node?_writeAll h, hlast]
    exact (hg.node?_file_iff.mpr hfile).symm
  | none =>
    show (if _ then _ else _) = _
    split
    · next hneeded =>
      obtain ⟨d, hd, hl⟩ := hneeded
      exact (directories_again h hg hd l hl).symm
    · rfl

end Again

end Workspace
end Stencil
