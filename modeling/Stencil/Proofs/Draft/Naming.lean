import Stencil.Proofs.Production.Prefix
import Stencil.Proofs.Workspace.LastSegment

/-!
# Which patterns name a file

Whether a pattern names a file below a directory is told from the last segment of its filled path template, unless that
segment is a dot: then the step before it counts, and if there is none, the directory.

- **`nameless_of_segment`**, **`nameless_of_dot`**: when a filled path template names no file.
- **`draft_nameless_iff`**: which patterns are refused for want of a file name, and the file names of the others.
- **`draft_dot_segment`**: a last segment that is a dot is not refused as the other segments that name no file are.
-/

namespace Stencil

/-! ## Paths that name no file -/

section Nameless

variable {dir : Path} {key : String}

theorem nameless_iff_of_ne (h : (Path.mk key).lastSegment ≠ "") :
    Nameless dir key ↔ (dir.join ⟨key⟩).fileName? = none := by
  obtain ⟨h₁, h₂⟩ := not_or.mp (mt Path.lastSegment_eq_empty_iff.mpr h)
  rw [Nameless, or_iff_right h₁, or_iff_right h₂]

/-- A last segment other than a dot tells all: no file is named if it is empty or two dots, and otherwise it is the name
of the file. -/
theorem nameless_of_segment (dir : Path) (h : (Path.mk key).lastSegment ≠ ".") :
    (Nameless dir key ↔ (Path.mk key).lastSegment = "" ∨ (Path.mk key).lastSegment = "..") ∧
      (¬ Nameless dir key → (dir.join ⟨key⟩).fileName? = some (Path.mk key).lastSegment) := by
  by_cases hempty : (Path.mk key).lastSegment = ""
  · have hnameless : Nameless dir key := by
      rw [Nameless, ← or_assoc]
      exact .inl (Path.lastSegment_eq_empty_iff.mp hempty)
    exact ⟨iff_of_true hnameless (.inl hempty), fun h' => absurd hnameless h'⟩
  have hfile := Path.fileName?_join_of_step dir (Path.getLast?_steps hempty h)
  rw [nameless_iff_of_ne hempty, or_iff_right hempty]
  by_cases hup : (Path.mk key).lastSegment = ".."
  · rw [if_pos hup] at hfile
    exact ⟨iff_of_true hfile hup, fun h' => absurd hfile h'⟩
  · rw [if_neg hup] at hfile
    have hsome : (dir.join ⟨key⟩).fileName? ≠ none := by
      rw [hfile]
      exact Option.some_ne_none _
    exact ⟨iff_of_false hsome hup, fun _ => hfile⟩

/-- A key that ends in a proper name makes a file of that name. -/
theorem named_of_lastSegment (dir : Path) (h : (Path.mk key).lastSegment ∉ ["", ".", ".."]) :
    ¬ Nameless dir key ∧ (dir.join ⟨key⟩).fileName? = some (Path.mk key).lastSegment := by
  simp only [List.mem_cons, List.not_mem_nil, or_false, not_or] at h
  obtain ⟨hempty, hdot, hdots⟩ := h
  obtain ⟨hnameless, hname⟩ := nameless_of_segment dir hdot
  have hnamed : ¬ Nameless dir key := fun hn => (hnameless.mp hn).elim hempty hdots
  exact ⟨hnamed, hname hnamed⟩

/-- Where the last segment is a dot, the step before it counts, and if there is none the directory. -/
theorem nameless_of_dot (dir : Path) (h : (Path.mk key).lastSegment = ".") :
    match (Path.mk key).steps.getLast? with
    | some (.name name) => ¬ Nameless dir key ∧ (dir.join ⟨key⟩).fileName? = some name
    | some _ => Nameless dir key
    | none => (Nameless dir key ↔ (Path.mk key).isAbsolute = true ∨ dir.fileName? = none) ∧
        (¬ Nameless dir key → (dir.join ⟨key⟩).fileName? = dir.fileName?) := by
  have hne : (Path.mk key).lastSegment ≠ "" := by
    rw [h]
    decide
  rw [nameless_iff_of_ne hne]
  cases hstep : (Path.mk key).steps.getLast? with
  | some c =>
    have hfile := Path.fileName?_join_of_step dir hstep
    cases c with
    | name name =>
      have hsome : (dir.join ⟨key⟩).fileName? ≠ none := by
        rw [hfile]
        exact Option.some_ne_none name
      exact ⟨hsome, hfile⟩
    | _ => exact hfile
  | none =>
    have hnil : (Path.mk key).steps = [] := List.getLast?_eq_none_iff.mp hstep
    by_cases habs : (Path.mk key).isAbsolute = true
    · have hfile : (dir.join ⟨key⟩).fileName? = none := by
        rw [Path.join_of_absolute habs]
        exact Path.fileName?_of_no_step hnil
      exact ⟨iff_of_true hfile (.inl habs), fun h' => absurd hfile h'⟩
    · have hfile : (dir.join ⟨key⟩).fileName? = dir.fileName? :=
        Path.fileName?_join_of_no_step (Bool.eq_false_iff.mpr habs) hnil
      rw [hfile, or_iff_right habs]
      exact ⟨Iff.rfl, fun _ => rfl⟩

end Nameless

/-! ## Drafts -/

/-- A pattern whose templates are filled is drafted exactly if its path names a file. -/
theorem draft_of_filled {p : FilePattern} {dir : Path} {b : Bindings} {key text : String}
    (hkey : p.path.fill b = .ok key) (htext : p.text.fill b = .ok text) :
    Nameless dir key ∧ p.draft dir b = .error (.nameless (dir.join ⟨key⟩)) ∨
      ¬ Nameless dir key ∧ p.draft dir b = .ok ⟨dir.join ⟨key⟩, text⟩ := by
  rcases draft_cases p dir b with ⟨u, hu | ⟨-, hu⟩, -⟩ | ⟨key', text', hkey', htext', hdraft⟩
  · cases hkey.symm.trans hu
  · cases htext.symm.trans hu
  · obtain rfl := Except.ok.inj (hkey.symm.trans hkey')
    obtain rfl := Except.ok.inj (htext.symm.trans htext')
    exact hdraft

/-- **Names of files.** Let both templates of a pattern be filled. Then drafting refuses the pattern for want of a file
name, or gives the joined path with the text. If the last segment of the filled path template is not a dot, the pattern
is refused exactly if that segment is empty or two dots, and otherwise the segment is the file name. If it is a dot, the
step before it counts instead: a name is the file name, and a step up is refused. If there is no step, the pattern is
refused where it is absolute or the directory has no file name, and otherwise the file name is that of the directory. A
pattern that is refused ends a production with this cause and leaves the workspace as it was. -/
theorem draft_nameless_iff (p : FilePattern) (dir : Path) (b : Bindings) {key text : String}
    (hkey : p.path.fill b = .ok key) (htext : p.text.fill b = .ok text) :
    let q := dir.join ⟨key⟩
    let last := (Path.mk key).lastSegment
    let refused := p.draft dir b = .error (.nameless q)
    (refused ∨ p.draft dir b = .ok ⟨q, text⟩) ∧
    (last ≠ "." → (refused ↔ last = "" ∨ last = "..") ∧ (¬ refused → q.fileName? = some last)) ∧
    (last = "." → match (Path.mk key).steps.getLast? with
      | some (.name name) => ¬ refused ∧ q.fileName? = some name
      | some _ => refused
      | none => (refused ↔ (Path.mk key).isAbsolute = true ∨ dir.fileName? = none) ∧
          (¬ refused → q.fileName? = dir.fileName?)) ∧
    (refused → (Failure.nameless q).cause? = some "output path must have a filename" ∧
      ∀ rest w, (produce dir b (p :: rest) w).failure = some (.nameless q) ∧
        (produce dir b (p :: rest) w).workspace = w) := by
  intro q last refused
  have hrefused : refused ↔ Nameless dir key := by
    rcases draft_of_filled hkey htext with ⟨hnameless, h⟩ | ⟨hnameless, h⟩
    · exact iff_of_true h hnameless
    · refine iff_of_false (fun h' => ?_) hnameless
      cases h.symm.trans h'
  have hdrafted : refused ∨ p.draft dir b = .ok ⟨q, text⟩ := by
    rcases draft_of_filled hkey htext with ⟨-, h⟩ | ⟨-, h⟩
    · exact .inl h
    · exact .inr h
  refine ⟨hdrafted, ?_, ?_, fun h => ⟨rfl, fun rest w => ?_⟩⟩
  · rw [hrefused]
    exact nameless_of_segment dir
  · rw [hrefused]
    exact nameless_of_dot dir
  · rw [produce_of_draft_error rest h]
    exact ⟨rfl, rfl⟩

/-- A dot alone takes the name of the directory, and is refused where the directory has none. -/
theorem draft_nameless_iff_dot :
    let p : FilePattern := ⟨.ofSegments [.hole "x"], .ofSegments [.literal "b"]⟩
    let b := Bindings.empty.insert "x" "."
    p.path.fill b = .ok "." ∧ p.text.fill b = .ok "b" ∧
      p.draft ⟨"out"⟩ b = .ok ⟨⟨"out/."⟩, "b"⟩ ∧ p.draft ⟨".."⟩ b = .error (.nameless ⟨"../."⟩) := by
  intro p b
  have hkey : p.path.fill b = .ok "." := by decide +kernel
  have htext : p.text.fill b = .ok "b" := by decide +kernel
  have hlast : (Path.mk ".").lastSegment = "." := by decide +kernel
  have hstep : (Path.mk ".").steps.getLast? = none := by decide +kernel
  have hjoin : Path.join ⟨"out"⟩ ⟨"."⟩ = ⟨"out/."⟩ := by decide +kernel
  have hjoin' : Path.join ⟨".."⟩ ⟨"."⟩ = ⟨"../."⟩ := by decide +kernel
  have hnamed : ¬ ((Path.mk ".").isAbsolute = true ∨ (Path.mk "out").fileName? = none) := by decide +kernel
  have hnone : (Path.mk "..").fileName? = none := by decide +kernel
  obtain ⟨hdrafted, -, hdot, -⟩ := draft_nameless_iff p ⟨"out"⟩ b hkey htext
  obtain ⟨-, -, hdot', -⟩ := draft_nameless_iff p ⟨".."⟩ b hkey htext
  replace hdot := hdot hlast
  replace hdot' := hdot' hlast
  rw [hstep] at hdot hdot'
  have hkept := hdrafted.resolve_left fun h => hnamed (hdot.1.mp h)
  have hrefused := hdot'.1.mpr (.inr hnone)
  rw [hjoin] at hkept
  rw [hjoin'] at hrefused
  exact ⟨hkey, htext, hkept, hrefused⟩

/-- A dot behind a slash is not refused as the other last segments that name no file are: the draft stands, and writing
it makes a directory before it fails. -/
theorem draft_dot_segment :
    let p : FilePattern := ⟨.ofSegments [.literal "a/."], .ofSegments [.literal "b"]⟩
    let made := produce ⟨"out"⟩ .empty [p] (.fresh "work")
    p.path.fill .empty = .ok "a/." ∧ p.text.fill .empty = .ok "b" ∧ (Path.mk "a/.").lastSegment = "." ∧
      p.draft ⟨"out"⟩ .empty = .ok ⟨⟨"out/a/."⟩, "b"⟩ ∧ Path.fileName? ⟨"out/a/."⟩ = some "a" ∧
      made.failure = some (.file ⟨"out/a/."⟩ .notFound) ∧
      (Workspace.fresh "work").tree.node? ["out", "work"] = none ∧
      made.workspace.tree.node? ["out", "work"] = some .directory := by
  decide +kernel

end Stencil
