import Stencil.Proofs.Production.Again
import Stencil.Proofs.Template.Filling
import Stencil.Proofs.Workspace.Alike

/-!
# What values can influence

A value that stands in no path template can change what files hold, but not where files are or whether they are made.

- **`draft_other_values`**: a pattern drafted with other values for its text has the same path, or fails the same way.
- **`alike_produce`**: two productions on alike workspaces keep step, and what they leave is alike but for the files
  that they wrote.
- **`produce_other_values`**: the outcome, the log and the shape of the tree do not depend on values that stand in texts
  only.
-/

namespace Stencil

variable {dir : Path} {b c : Bindings} {w w' : Workspace}

/-! ## Drafts -/

/-- The values can differ in texts only: those in paths are the same, and those in texts are there in both. -/
structure FilePattern.SamePaths (p : FilePattern) (b c : Bindings) : Prop where
  path : ∀ name ∈ p.path.names, c.get? name = b.get? name
  text : ∀ name ∈ p.text.names, b.get? name ≠ none ∧ c.get? name ≠ none

theorem draft_other_values {p : FilePattern} (h : p.SamePaths b c) (dir : Path) :
    (∃ f, p.draft dir b = .error f ∧ p.draft dir c = .error f) ∨
    ∃ d d', p.draft dir b = .ok d ∧ p.draft dir c = .ok d' ∧ d'.path = d.path := by
  obtain ⟨text, htext⟩ := Template.exists_fill fun name hname => (h.text name hname).1
  obtain ⟨text', htext'⟩ := Template.exists_fill fun name hname => (h.text name hname).2
  unfold FilePattern.draft
  rw [Template.fill_congr h.path, htext, htext']
  cases p.path.fill b with
  | error u => exact .inl ⟨_, rfl, rfl⟩
  | ok key =>
    simp only
    split
    · exact .inl ⟨_, rfl, rfl⟩
    · exact .inr ⟨_, _, rfl, rfl, rfl⟩

theorem draft_congr {p : FilePattern} (h : ∀ name ∈ p.path.names ++ p.text.names, c.get? name = b.get? name)
    (dir : Path) : p.draft dir c = p.draft dir b := by
  have hpath : p.path.fill c = p.path.fill b := Template.fill_congr fun n hn => h n (List.mem_append_left _ hn)
  have htext : p.text.fill c = p.text.fill b := Template.fill_congr fun n hn => h n (List.mem_append_right _ hn)
  rw [FilePattern.draft, FilePattern.draft, hpath, htext]

/-! ## Productions -/

/-- Two productions on alike workspaces keep step. -/
theorem alike_produce {ps : List FilePattern} {ls : List Location} (h : Workspace.Alike w w' ls)
    (hps : ∀ p ∈ ps, p.SamePaths b c) :
    (produce dir c ps w').written = (produce dir b ps w).written ∧
    (produce dir c ps w').failure = (produce dir b ps w).failure ∧
    (produce dir c ps w').log = (produce dir b ps w).log ∧
    Workspace.Alike (produce dir b ps w).workspace (produce dir c ps w').workspace
      ((produce dir b ps w).written.map w.target ++ ls) := by
  induction ps generalizing w w' ls with
  | nil => exact ⟨rfl, rfl, rfl, h⟩
  | cons p ps ih =>
    obtain ⟨hp, hrest⟩ := List.forall_mem_cons.mp hps
    rcases draft_other_values hp dir with ⟨f, e, e'⟩ | ⟨d, d', e, e', hpath⟩
    · rw [produce_of_draft_error ps e, produce_of_draft_error ps e']
      exact ⟨rfl, rfl, rfl, h⟩
    · obtain ⟨hfailure, hlog, halike⟩ := Workspace.alike_install h d.path d.text.toUTF8 d'.text.toUTF8
      have hwrite : w.install d.path d.text.toUTF8 = d.write w := rfl
      have hwrite' : w'.install d.path d'.text.toUTF8 = d'.write w' := by rw [Draft.write, hpath]
      rw [hwrite, hwrite'] at hfailure hlog halike
      cases hf : (d.write w).failure with
      | some f =>
        rw [produce_of_write_error ps e hf, produce_of_write_error ps e' (hfailure.trans hf)]
        exact ⟨rfl, rfl, hlog, halike ls (List.Subset.refl ls) fun hnone => nomatch hf.symm.trans hnone⟩
      | none =>
        -- from here on the two may differ where this file is
        have hu := halike (w.target d.path :: ls) (List.subset_cons_self _ ls) fun _ => List.mem_cons_self
        obtain ⟨ihwritten, ihfailure, ihlog, ihalike⟩ := ih hu hrest
        have htarget : (d.write w).workspace.target = w.target :=
          funext fun q => Workspace.target_eq_of_here (Workspace.installed_of_install hf).here_eq q
        rw [htarget] at ihalike
        rw [produce_of_write_ok ps e hf, produce_of_write_ok ps e' (hfailure.trans hf)]
        refine ⟨?_, ihfailure, ?_, ihalike.mono List.perm_middle.subset⟩
        · exact congrArg₂ (· :: ·) hpath ihwritten
        · exact congrArg₂ (· ++ ·) hlog ihlog

/-- A production reads nothing but the drafts of its patterns. -/
theorem produce_congr {ps : List FilePattern} (h : ∀ p ∈ ps, p.draft dir c = p.draft dir b) (w : Workspace) :
    produce dir c ps w = produce dir b ps w := by
  induction ps generalizing w with
  | nil => rfl
  | cons p ps ih =>
    obtain ⟨hp, hrest⟩ := List.forall_mem_cons.mp h
    simp only [produce, hp, ih hrest]

/-- A path that was written leads to a file, also after a failure. -/
theorem find_written {ps : List FilePattern} {q : Path} (hq : q ∈ (produce dir b ps w).written) :
    ∃ content, (produce dir b ps w).workspace.find q = .ok (w.target q, .file content) := by
  obtain ⟨before, after, ds, -, -, hw, -, hwritten, hend⟩ := exists_ending dir b w ps
  rw [hwritten] at hq
  obtain ⟨d, hd, rfl⟩ := List.mem_map.mp hq
  rcases hend with ⟨-, -, e⟩ | ⟨p, rest, f, -, hf, -, e⟩
  · rw [e]
    exact Workspace.find_again hw (Workspace.Grown.refl _ []) hd
  · obtain ⟨⟨ls, hgrown⟩, -, -⟩ := attempt_again hf
    rw [e]
    exact Workspace.find_again hw hgrown hd

/-! ## Other values -/

/-- **Other values.** Let two bindings agree on the names in path templates, and both have values for all names in text
templates. Then a kit has the same outcome with both: the same paths are written, or the same pattern fails in the same
way. The same lines are logged. The trees have nodes of the same kinds at the same locations, and differ only where a
path that was written leads to a file in both. Bindings that agree on all names of the kit give the same production. -/
theorem produce_other_values (k : Kit) (dir : Path) (b c : Bindings) (w : Workspace) :
    let r := k.produce dir b w
    let r' := k.produce dir c w
    ((∀ p ∈ k.patterns, (∀ name ∈ p.path.names, c.get? name = b.get? name) ∧
        ∀ name ∈ p.text.names, b.get? name ≠ none ∧ c.get? name ≠ none) →
      r'.outcome = r.outcome ∧ r'.written = r.written ∧ r'.log = r.log ∧
      firstFailure dir c w k.patterns = firstFailure dir b w k.patterns ∧
      r.workspace.tree.SameShape r'.workspace.tree ∧
      ∀ l, r'.workspace.tree.node? l ≠ r.workspace.tree.node? l →
        ∃ q ∈ r.written, (∃ content, r.workspace.find q = .ok (l, .file content)) ∧
          ∃ content, r'.workspace.find q = .ok (l, .file content)) ∧
    ((∀ p ∈ k.patterns, ∀ name ∈ p.path.names ++ p.text.names, c.get? name = b.get? name) → r' = r) := by
  intro r r'
  constructor
  · intro h
    have hps : ∀ p ∈ k.patterns, p.SamePaths b c := fun p hp => ⟨(h p hp).1, (h p hp).2⟩
    obtain ⟨hwritten, hfailure, hlog, halike⟩ := alike_produce (Workspace.Alike.refl w) hps
    rw [List.append_nil] at halike
    refine ⟨?_, hwritten, hlog, ?_, halike.shape, fun l hl => ?_⟩
    · simp only [r, r', Kit.produce, Production.outcome, hfailure, hwritten]
    · rw [← length_written, ← length_written, hwritten]
    · obtain ⟨q, hq, rfl⟩ := List.mem_map.mp (not_imp_comm.mp (halike.node?_eq l) hl)
      exact ⟨q, hq, find_written hq, find_written (hwritten ▸ hq)⟩
  · exact fun h => produce_congr (fun p hp => draft_congr (h p hp) dir) w

/-- A file, and a file below it for which there is no room. -/
def oneInTheWay : Kit where
  patterns := [
    ⟨.ofSegments [.hole "name"], .ofSegments [.literal "of ", .hole "author"]⟩,
    ⟨.ofSegments [.hole "name", .literal "/notes"], .ofSegments [.hole "author"]⟩]

/-- The second file cannot be made, whoever the author is; the first shows the author. -/
theorem produce_other_values_oneInTheWay :
    let b := (Bindings.empty.insert "name" "a").insert "author" "x"
    let c := (Bindings.empty.insert "name" "a").insert "author" "y"
    let r := oneInTheWay.produce ⟨"out"⟩ b (.fresh "work")
    let r' := oneInTheWay.produce ⟨"out"⟩ c (.fresh "work")
    (∀ p ∈ oneInTheWay.patterns, (∀ name ∈ p.path.names, c.get? name = b.get? name) ∧
      ∀ name ∈ p.text.names, b.get? name ≠ none ∧ c.get? name ≠ none) ∧
    r.outcome = .error (.directory ⟨"out/a"⟩ .alreadyExists) ∧ r'.outcome = r.outcome ∧ r'.written = [⟨"out/a"⟩] ∧
    r.workspace.tree.node? ["a", "out", "work"] = some (.file "of x".toUTF8) ∧
    r'.workspace.tree.node? ["a", "out", "work"] = some (.file "of y".toUTF8) := by
  intro b c r r'
  have hnames : ∀ p ∈ oneInTheWay.patterns, (∀ name ∈ p.path.names, c.get? name = b.get? name) ∧
      ∀ name ∈ p.text.names, b.get? name ≠ none ∧ c.get? name ≠ none := by decide +kernel
  have hfailure : r.failure = some (.directory ⟨"out/a"⟩ .alreadyExists) := by decide +kernel
  have hwritten : r.written = [⟨"out/a"⟩] := by decide +kernel
  obtain ⟨hsame, -⟩ := produce_other_values oneInTheWay ⟨"out"⟩ b c (.fresh "work")
  obtain ⟨houtcome, hpaths, -⟩ := hsame hnames
  exact ⟨hnames, outcome_eq_error hfailure, houtcome, hpaths.trans hwritten, by decide +kernel, by decide +kernel⟩

end Stencil
