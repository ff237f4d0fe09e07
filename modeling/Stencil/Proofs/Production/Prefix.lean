import Stencil.Production
import Stencil.Proofs.Production.Drafts

/-!
# Productions, seen in two phases

Producing drafts and writes in turn. It comes to the same as drafting first and writing then, up to the first pattern
that fails:

- **`exists_run`**: every list of patterns is a part that is drafted and written, and then its end or a failure.
- **`produce_append`**: what was drafted and written goes in front of what the other patterns give.
- **`produce_two_phases`**: the outcome and the workspace of a production, told from the first failure.
-/

namespace Stencil

/-- The joined path of a pattern names no file. -/
def Nameless (dir : Path) (key : String) : Prop :=
  key = "" ∨ (Path.mk key).endsInSlash = true ∨ (dir.join ⟨key⟩).fileName? = none

/-- How drafting a pattern goes: a name has no value; or both templates are filled, and the joined path names no file or
names one. -/
theorem draft_cases (p : FilePattern) (dir : Path) (b : Bindings) :
    (∃ u, (p.path.fill b = .error u ∨ (∃ key, p.path.fill b = .ok key) ∧ p.text.fill b = .error u) ∧
      p.draft dir b = .error (.unbound u)) ∨
    ∃ key text, p.path.fill b = .ok key ∧ p.text.fill b = .ok text ∧
      (Nameless dir key ∧ p.draft dir b = .error (.nameless (dir.join ⟨key⟩)) ∨
        ¬ Nameless dir key ∧ p.draft dir b = .ok ⟨dir.join ⟨key⟩, text⟩) := by
  cases hkey : p.path.fill b with
  | error u => exact .inl ⟨u, .inl rfl, by simp only [FilePattern.draft, hkey]⟩
  | ok key =>
    cases htext : p.text.fill b with
    | error u => exact .inl ⟨u, .inr ⟨⟨key, rfl⟩, rfl⟩, by simp only [FilePattern.draft, hkey, htext]⟩
    | ok text =>
      refine .inr ⟨key, text, rfl, rfl, ?_⟩
      simp only [FilePattern.draft, hkey, htext]
      split
      · next h => exact .inl ⟨by simpa [Nameless, or_assoc] using h, rfl⟩
      · next h => exact .inr ⟨by simpa [Nameless, and_assoc] using h, rfl⟩

/-- What goes wrong with a pattern, if anything does: it cannot be drafted, or its draft cannot be written. -/
def FilePattern.failure? (p : FilePattern) (dir : Path) (b : Bindings) (w : Workspace) : Option Failure :=
  match p.draft dir b with
  | .error f => some f
  | .ok d => (d.write w).failure

/-- The workspace that a pattern leaves: as it was if the pattern cannot be drafted. -/
def FilePattern.attempt (p : FilePattern) (dir : Path) (b : Bindings) (w : Workspace) : Workspace :=
  match p.draft dir b with
  | .error _ => w
  | .ok d => (d.write w).workspace

section Run

variable (dir : Path) (b : Bindings)

/-- The drafts of the patterns that can be drafted. -/
def drafts (ps : List FilePattern) : List Draft := ps.filterMap fun p => (p.draft dir b).toOption

/-- What goes wrong with a pattern once the drafts of those before it were written. -/
def failureAt (w : Workspace) (ps : List FilePattern) (i : Nat) : Option Failure :=
  ps[i]?.bind fun p => p.failure? dir b (w.writeAll (drafts dir b (ps.take i)))

/-- The place of the first pattern that fails once the drafts of those before it were written; the number of patterns
if there is none. -/
def firstFailure (w : Workspace) (ps : List FilePattern) : Nat :=
  (List.range ps.length).findIdx fun i => (failureAt dir b w ps i).isSome

/-- The patterns can be drafted, and these are their drafts. -/
def Drafted (ps : List FilePattern) (ds : List Draft) : Prop := ps.map (·.draft dir b) = ds.map .ok

variable {dir b} {w : Workspace} {before after rest : List FilePattern} {p : FilePattern} {ds : List Draft}

theorem failure?_eq_none_iff :
    p.failure? dir b w = none ↔ ∃ d, p.draft dir b = .ok d ∧ (d.write w).failure = none := by
  rw [FilePattern.failure?]
  cases p.draft dir b <;> simp

theorem drafts_cons_ok {d : Draft} (h : p.draft dir b = .ok d) (ps : List FilePattern) :
    drafts dir b (p :: ps) = d :: drafts dir b ps := by
  rw [drafts, List.filterMap_cons, h]
  rfl

theorem drafted_cons_iff {d : Draft} :
    Drafted dir b (p :: before) (d :: ds) ↔ p.draft dir b = .ok d ∧ Drafted dir b before ds := by
  simp [Drafted]

theorem Drafted.length_eq (h : Drafted dir b before ds) : before.length = ds.length := by
  have hlen := congrArg List.length h
  simpa using hlen

theorem Drafted.take (h : Drafted dir b before ds) (i : Nat) : Drafted dir b (before.take i) (ds.take i) := by
  rw [Drafted, List.map_take, List.map_take, h]

theorem Drafted.drafts_eq (h : Drafted dir b before ds) : drafts dir b before = ds := by
  have hcomp : drafts dir b before = (before.map (·.draft dir b)).filterMap Except.toOption := by
    rw [drafts, List.filterMap_map]
    rfl
  rw [hcomp, h, List.filterMap_map]
  exact List.filterMap_some

theorem Drafted.draft_eq (h : Drafted dir b before ds) {i : Nat} {d : Draft} (hd : ds[i]? = some d) :
    ∃ p, before[i]? = some p ∧ p.draft dir b = .ok d := by
  have hi := congrArg (·[i]?) h
  simp only [List.getElem?_map, hd, Option.map_some, Option.map_eq_some_iff] at hi
  exact hi

/-! ## Runs -/

/-- Every list of patterns is a part that is drafted and written, and then its end or a failure. -/
theorem exists_run (dir : Path) (b : Bindings) (w : Workspace) (ps : List FilePattern) :
    ∃ before after ds, ps = before ++ after ∧ Drafted dir b before ds ∧ w.WritesAll ds ∧
      ∀ p rest, after = p :: rest → ∃ f, p.failure? dir b (w.writeAll ds) = some f := by
  induction ps generalizing w with
  | nil => exact ⟨[], [], [], rfl, rfl, trivial, fun p rest h => by cases h⟩
  | cons p ps ih =>
    cases hf : p.failure? dir b w with
    | some f =>
      refine ⟨[], p :: ps, [], rfl, rfl, trivial, fun p' rest h => ?_⟩
      obtain ⟨rfl, rfl⟩ := List.cons.inj h
      exact ⟨f, hf⟩
    | none =>
      obtain ⟨d, hd, hw⟩ := failure?_eq_none_iff.mp hf
      obtain ⟨before, after, ds, rfl, hds, hws, hstop⟩ := ih (d.write w).workspace
      exact ⟨p :: before, after, d :: ds, rfl, drafted_cons_iff.mpr ⟨hd, hds⟩, ⟨hw, hws⟩, hstop⟩

theorem produce_of_draft_error {f : Failure} (rest : List FilePattern) (h : p.draft dir b = .error f) :
    produce dir b (p :: rest) w = ⟨[], some f, w, f.draftLog ++ [.notDrafted p.path.source]⟩ := by
  rw [produce, h]

theorem produce_of_write_error {d : Draft} {f : Failure} (rest : List FilePattern) (hd : p.draft dir b = .ok d)
    (hw : (d.write w).failure = some f) :
    produce dir b (p :: rest) w = ⟨[], some f, (d.write w).workspace, (d.write w).log⟩ := by
  cases hres : d.write w with
  | mk failure w' log =>
    obtain rfl : failure = some f := hw ▸ (congrArg Written.failure hres).symm
    simp only [produce, hd, hres]

theorem produce_of_write_ok {d : Draft} (rest : List FilePattern) (hd : p.draft dir b = .ok d)
    (hw : (d.write w).failure = none) :
    produce dir b (p :: rest) w =
      let r := produce dir b rest (d.write w).workspace
      ⟨d.path :: r.written, r.failure, r.workspace, (d.write w).log ++ r.log⟩ := by
  cases hres : d.write w with
  | mk failure w' log =>
    obtain rfl : failure = none := hw ▸ (congrArg Written.failure hres).symm
    simp only [produce, hd, hres]

theorem produce_cons {d : Draft} (rest : List FilePattern) (hd : p.draft dir b = .ok d)
    (hw : (d.write w).failure = none) :
    (produce dir b (p :: rest) w).written = d.path :: (produce dir b rest (d.write w).workspace).written ∧
    (produce dir b (p :: rest) w).failure = (produce dir b rest (d.write w).workspace).failure ∧
    (produce dir b (p :: rest) w).workspace = (produce dir b rest (d.write w).workspace).workspace := by
  rw [produce_of_write_ok rest hd hw]
  exact ⟨rfl, rfl, rfl⟩

/-- What was drafted and written goes in front of what the other patterns give. -/
theorem produce_append (after : List FilePattern) (hd : Drafted dir b before ds) (hw : w.WritesAll ds) :
    (produce dir b (before ++ after) w).written =
      ds.map (·.path) ++ (produce dir b after (w.writeAll ds)).written ∧
    (produce dir b (before ++ after) w).failure = (produce dir b after (w.writeAll ds)).failure ∧
    (produce dir b (before ++ after) w).workspace = (produce dir b after (w.writeAll ds)).workspace := by
  induction before generalizing w ds with
  | nil =>
    obtain rfl : ds = [] := List.length_eq_zero_iff.mp hd.length_eq.symm
    exact ⟨rfl, rfl, rfl⟩
  | cons p before ih =>
    cases ds with
    | nil => cases hd
    | cons d ds =>
      obtain ⟨hp, hds⟩ := drafted_cons_iff.mp hd
      obtain ⟨hwritten, hfailure, hworkspace⟩ := produce_cons (before ++ after) hp hw.1
      obtain ⟨ihwritten, ihfailure, ihworkspace⟩ := ih hds hw.2
      refine ⟨?_, hfailure.trans ihfailure, hworkspace.trans ihworkspace⟩
      rw [List.cons_append, hwritten, ihwritten]
      rfl

/-- A pattern that fails ends the production. -/
theorem produce_of_failure {f : Failure} (rest : List FilePattern) (h : p.failure? dir b w = some f) :
    (produce dir b (p :: rest) w).written = [] ∧ (produce dir b (p :: rest) w).failure = some f ∧
      (produce dir b (p :: rest) w).workspace = p.attempt dir b w := by
  rw [FilePattern.failure?] at h
  rw [FilePattern.attempt]
  cases hd : p.draft dir b with
  | error f' =>
    rw [hd] at h
    rw [produce_of_draft_error rest hd]
    exact ⟨rfl, h, rfl⟩
  | ok d =>
    rw [hd] at h
    rw [produce_of_write_error rest hd h]
    exact ⟨rfl, rfl, rfl⟩

/-! ## The first failure -/

theorem failure_write_of_writesAll {i : Nat} {d : Draft} (h : w.WritesAll ds) (hd : ds[i]? = some d) :
    (d.write (w.writeAll (ds.take i))).failure = none := by
  induction ds generalizing w i with
  | nil => cases hd
  | cons e ds ih =>
    cases i with
    | zero =>
      obtain rfl : e = d := Option.some.inj hd
      exact h.1
    | succ i => exact ih h.2 hd

theorem failureAt_before (hd : Drafted dir b before ds) (hw : w.WritesAll ds) {i : Nat} (hi : i < before.length) :
    failureAt dir b w (before ++ after) i = none := by
  have hds : i < ds.length := hd.length_eq ▸ hi
  have hget : ds[i]? = some ds[i] := List.getElem?_eq_getElem hds
  obtain ⟨p, hp, hdraft⟩ := hd.draft_eq hget
  rw [failureAt, List.getElem?_append_left hi, hp, List.take_append_of_le_length (Nat.le_of_lt hi),
    (hd.take i).drafts_eq, Option.bind_some, FilePattern.failure?, hdraft]
  exact failure_write_of_writesAll hw hget

theorem failureAt_stop (hd : Drafted dir b before ds) :
    failureAt dir b w (before ++ after) before.length = after.head?.bind (·.failure? dir b (w.writeAll ds)) := by
  rw [failureAt, List.getElem?_append_right (Nat.le_refl _), Nat.sub_self, List.take_left, hd.drafts_eq,
    List.head?_eq_getElem?]

/-- The first failure is where the part that is drafted and written ends. -/
theorem firstFailure_eq (hd : Drafted dir b before ds) (hw : w.WritesAll ds)
    (hstop : ∀ p rest, after = p :: rest → ∃ f, p.failure? dir b (w.writeAll ds) = some f) :
    firstFailure dir b w (before ++ after) = before.length := by
  have hnone : ∀ i (_ : i < before.length), (failureAt dir b w (before ++ after) i).isSome = false := by
    intro i hi
    rw [failureAt_before hd hw hi]
    rfl
  rw [firstFailure]
  cases after with
  | nil =>
    rw [List.append_nil] at hnone ⊢
    rw [List.findIdx_eq_length_of_false, List.length_range]
    intro i hi
    exact hnone i (List.mem_range.mp hi)
  | cons p rest =>
    obtain ⟨f, hf⟩ := hstop p rest rfl
    have hlt : before.length < (List.range (before ++ p :: rest).length).length := by simp
    rw [List.findIdx_eq hlt]
    constructor
    · rw [List.getElem_range, failureAt_stop hd, List.head?_cons, Option.bind_some, hf]
      rfl
    · intro j hj
      rw [List.getElem_range]
      exact hnone j hj

/-! ## Both phases -/

theorem outcome_eq_ok {r : Production} (h : r.failure = none) : r.outcome = .ok r.written := by
  rw [Production.outcome, h]

theorem outcome_eq_error {r : Production} {f : Failure} (h : r.failure = some f) : r.outcome = .error f := by
  rw [Production.outcome, h]

theorem failure_of_outcome_ok {r : Production} {paths : List Path} (h : r.outcome = .ok paths) : r.failure = none := by
  cases hf : r.failure with
  | none => rfl
  | some f => cases h.symm.trans (outcome_eq_error hf)

/-- Patterns that can be drafted, and whose drafts can be written, are produced. -/
theorem produce_of_drafted {ps : List FilePattern} (hd : Drafted dir b ps ds) (hw : w.WritesAll ds) :
    (produce dir b ps w).outcome = .ok (ds.map (·.path)) ∧ (produce dir b ps w).workspace = w.writeAll ds := by
  obtain ⟨hwritten, hfailure, hworkspace⟩ := produce_append [] hd hw
  rw [List.append_nil] at hwritten hfailure hworkspace
  have hpaths : (produce dir b ps w).written = ds.map (·.path) := hwritten.trans (List.append_nil _)
  refine ⟨?_, hworkspace⟩
  rw [outcome_eq_ok hfailure, hpaths]

/-- Every production writes the drafts of a part of its patterns, and then ends or comes to a pattern that fails. -/
theorem exists_ending (dir : Path) (b : Bindings) (w : Workspace) (ps : List FilePattern) :
    ∃ before after ds, ps = before ++ after ∧ Drafted dir b before ds ∧ w.WritesAll ds ∧
      firstFailure dir b w ps = before.length ∧ (produce dir b ps w).written = ds.map (·.path) ∧
      (after = [] ∧ (produce dir b ps w).failure = none ∧ (produce dir b ps w).workspace = w.writeAll ds ∨
        ∃ p rest f, after = p :: rest ∧ p.failure? dir b (w.writeAll ds) = some f ∧
          (produce dir b ps w).failure = some f ∧
          (produce dir b ps w).workspace = p.attempt dir b (w.writeAll ds)) := by
  obtain ⟨before, after, ds, rfl, hd, hw, hstop⟩ := exists_run dir b w ps
  obtain ⟨hwritten, hfailure, hworkspace⟩ := produce_append after hd hw
  refine ⟨before, after, ds, rfl, hd, hw, firstFailure_eq hd hw hstop, ?_⟩
  rw [hwritten, hfailure, hworkspace]
  cases after with
  | nil => exact ⟨List.append_nil _, .inl ⟨rfl, rfl, rfl⟩⟩
  | cons p rest =>
    obtain ⟨f, hf⟩ := hstop p rest rfl
    obtain ⟨hnone, hsome, hattempt⟩ := produce_of_failure rest hf
    rw [hnone]
    exact ⟨List.append_nil _, .inr ⟨p, rest, f, rfl, hf, hsome, hattempt⟩⟩

/-- As many files are written as there are patterns before the first that fails. -/
theorem length_written (dir : Path) (b : Bindings) (w : Workspace) (ps : List FilePattern) :
    (produce dir b ps w).written.length = firstFailure dir b w ps := by
  obtain ⟨before, after, ds, -, hd, -, hfirst, hwritten, -⟩ := exists_ending dir b w ps
  rw [hfirst, hwritten, List.length_map, hd.length_eq]

/-- Patterns that are produced can be drafted, and their drafts can be written. -/
theorem drafted_of_produce {ps : List FilePattern} (h : (produce dir b ps w).failure = none) :
    ∃ ds, Drafted dir b ps ds ∧ w.WritesAll ds := by
  obtain ⟨before, after, ds, rfl, hd, hw, -, -, ⟨rfl, -, -⟩ | ⟨p, rest, f, -, -, hf, -⟩⟩ := exists_ending dir b w ps
  · rw [List.append_nil]
    exact ⟨ds, hd, hw⟩
  · cases h.symm.trans hf

/-- Patterns behind one that fails make no difference. -/
theorem produce_ignores_rest (hd : Drafted dir b before ds) (hw : w.WritesAll ds) {f : Failure}
    (hf : p.failure? dir b (w.writeAll ds) = some f) (rest : List FilePattern) :
    (produce dir b (before ++ p :: rest) w).outcome = .error f ∧
      (produce dir b (before ++ p :: rest) w).workspace = p.attempt dir b (w.writeAll ds) := by
  obtain ⟨-, hfailure, hworkspace⟩ := produce_append (p :: rest) hd hw
  obtain ⟨-, hfailure', hworkspace'⟩ := produce_of_failure rest hf
  exact ⟨outcome_eq_error (hfailure.trans hfailure'), hworkspace.trans hworkspace'⟩

end Run

/-- **Two phases.** Let `n` be the place of the first pattern that fails. The patterns before it can be drafted, and the
production writes their drafts in order. If there is no failure, this is all, and the paths are answered. Otherwise the
failure is answered. A pattern that cannot be drafted leaves the workspace as it was by then; a draft that cannot be
written leaves what attempting to write it leaves, which is at most directories that its path is approached by. Patterns
behind the failure have no effect, whatever they are. -/
theorem produce_two_phases (k : Kit) (dir : Path) (b : Bindings) (w : Workspace) :
    let n := firstFailure dir b w k.patterns
    let ds := drafts dir b (k.patterns.take n)
    let r := k.produce dir b w
    (n ≤ k.patterns.length ∧ (∀ i < n, failureAt dir b w k.patterns i = none) ∧
      (k.patterns.take n).map (·.draft dir b) = ds.map .ok) ∧
    (n = k.patterns.length → r.outcome = .ok (ds.map (·.path)) ∧ r.workspace = w.writeAll ds) ∧
    ∀ p, k.patterns[n]? = some p →
      (∀ f, p.draft dir b = .error f → r.outcome = .error f ∧ r.workspace = w.writeAll ds) ∧
      (∀ d, p.draft dir b = .ok d → ∃ f, (d.write (w.writeAll ds)).failure = some f ∧ r.outcome = .error f ∧
        r.workspace = (d.write (w.writeAll ds)).workspace ∧
        Workspace.Grown (w.writeAll ds) r.workspace ((w.writeAll ds).approach d.path)) ∧
      ∀ later, ((Kit.mk (k.patterns.take (n + 1) ++ later)).produce dir b w).outcome = r.outcome ∧
        ((Kit.mk (k.patterns.take (n + 1) ++ later)).produce dir b w).workspace = r.workspace := by
  obtain ⟨before, after, ds, hps, hd, hw, hstop⟩ := exists_run dir b w k.patterns
  have hn : firstFailure dir b w k.patterns = before.length := by
    rw [hps]
    exact firstFailure_eq hd hw hstop
  have htake : k.patterns.take before.length = before := by rw [hps, List.take_left]
  have hds : drafts dir b before = ds := hd.drafts_eq
  simp only [hn, htake, hds, Kit.produce]
  refine ⟨⟨?_, ?_, hd⟩, ?_, ?_⟩
  · rw [hps, List.length_append]
    omega
  · intro i hi
    rw [hps]
    exact failureAt_before hd hw hi
  · intro hlen
    have hafter : after = [] := by
      rw [hps, List.length_append] at hlen
      exact List.length_eq_zero_iff.mp (by omega)
    rw [hps, hafter, List.append_nil]
    exact produce_of_drafted hd hw
  · intro p hp
    rw [hps, List.getElem?_append_right (Nat.le_refl _), Nat.sub_self] at hp
    obtain ⟨rest, rfl⟩ : ∃ rest, after = p :: rest := List.head?_eq_some_iff.mp (List.head?_eq_getElem? ▸ hp)
    obtain ⟨f, hf⟩ := hstop p rest rfl
    obtain ⟨houtcome, hworkspace⟩ := produce_ignores_rest hd hw hf rest
    rw [hps]
    refine ⟨?_, ?_, ?_⟩
    · intro f' hdraft
      rw [FilePattern.failure?, hdraft] at hf
      rw [FilePattern.attempt, hdraft] at hworkspace
      obtain rfl := Option.some.inj hf
      exact ⟨houtcome, hworkspace⟩
    · intro d hdraft
      rw [FilePattern.failure?, hdraft] at hf
      rw [FilePattern.attempt, hdraft] at hworkspace
      refine ⟨f, hf, houtcome, hworkspace, ?_⟩
      rw [hworkspace]
      exact Workspace.grown_of_install hf
    · intro later
      have htake' : (before ++ p :: rest).take (before.length + 1) = before ++ [p] := by
        rw [← List.singleton_append, ← List.append_assoc]
        exact List.take_left' (by simp)
      rw [htake', List.append_assoc, List.singleton_append, houtcome, hworkspace]
      exact produce_ignores_rest hd hw hf later

end Stencil
