import Stencil.Proofs.Production.Prefix

/-!
# What productions log

The log of a production tells what happened. Each file that is written leaves two lines, for its directory and for its
path (`writtenLines`); a failure ends the log with lines that tell its kind (`FailureLines`).

- **`failureLines_of_draft`**, **`failureLines_of_write`**: what a pattern that fails logs.
- **`exists_log`**: the whole log, pattern by pattern.
- **`produce_log`**: the log, told from the paths written and the failure; its lines of each level.
-/

namespace Stencil

/-- A line as it is printed. -/
def LogLine.shown (line : LogLine) : LogLevel × String := (line.level, line.text)

/-- The lines for files that are written: for each its directory, then its path. -/
def writtenLines (parents paths : List Path) : List (LogLevel × String) :=
  (parents.zip paths).flatMap fun x => [(.debug, "Ensured directory " ++ x.1.quoted), (.info, x.2.quoted)]

/-- The lines that a pattern leaves when it fails in a workspace, for each way to fail. -/
inductive FailureLines (p : FilePattern) (dir : Path) (b : Bindings) (w : Workspace) :
    Failure → List (LogLevel × String) → Prop
  /-- A name has no value. -/
  | unbound {u : Unbound} (h : p.path.fill b = .error u ∨ (∃ key, p.path.fill b = .ok key) ∧ p.text.fill b = .error u) :
    FailureLines p dir b w (.unbound u) [(.error, "Failed to render template " ++ Text.quoted p.path.source)]
  /-- The joined path names no file. -/
  | nameless {key text : String} (hkey : p.path.fill b = .ok key) (htext : p.text.fill b = .ok text)
      (h : Nameless dir key) :
    FailureLines p dir b w (.nameless (dir.join ⟨key⟩))
      [(.error, "Output path must have a filename: " ++ (dir.join ⟨key⟩).quoted),
        (.error, "Failed to render template " ++ Text.quoted p.path.source)]
  /-- The directory of the file cannot be made. -/
  | directory {d : Draft} {q : Path} {fault : Fault} (hd : p.draft dir b = .ok d) (hq : d.path.parent? = some q)
      (h : (w.ensureDirectory q).2 = some fault) :
    FailureLines p dir b w (.directory q fault) [(.error, "Failed to create directory: " ++ q.quoted)]
  /-- The directory is made, but the file cannot be written. -/
  | file {d : Draft} {q : Path} {w' : Workspace} {fault : Fault} (hd : p.draft dir b = .ok d)
      (hq : d.path.parent? = some q) (he : w.ensureDirectory q = (w', none))
      (h : w'.write d.path d.text.toUTF8 = .error fault) :
    FailureLines p dir b w (.file d.path fault)
      [(.debug, "Ensured directory " ++ q.quoted),
        (.error, "Failed to write rendered content to file: " ++ d.path.quoted)]

variable {dir : Path} {b : Bindings} {w : Workspace} {p : FilePattern} {ds : List Draft}

/-! ## One pattern -/

/-- A draft is for a path that has a parent. -/
theorem parent?_of_draft {d : Draft} (h : p.draft dir b = .ok d) : ∃ q, d.path.parent? = some q := by
  rcases draft_cases p dir b with ⟨u, -, e⟩ | ⟨key, text, -, -, ⟨-, e⟩ | ⟨hname, e⟩⟩
  · cases h.symm.trans e
  · cases h.symm.trans e
  · obtain rfl := Except.ok.inj (h.symm.trans e)
    exact Path.exists_parent? fun hnone => hname (.inr (.inr hnone))

/-- What is logged for a draft that is written. -/
theorem log_of_write {d : Draft} (h : (d.write w).failure = none) :
    ∃ q, d.path.parent? = some q ∧ (d.write w).log = [.ensured q, .written d.path] := by
  rw [Draft.write] at h ⊢
  rcases Workspace.install_cases w d.path d.text.toUTF8 with ⟨hq, -⟩ | ⟨q, w', f, -, -, e⟩ | ⟨q, w', hq, -, e⟩
  · exact absurd (Workspace.install_failure_iff.mp h).writable (Workspace.not_writable_of_parent?_none hq)
  · rw [e] at h
    cases h
  · rw [e] at h ⊢
    refine ⟨q, hq, ?_⟩
    have hw := Workspace.of_writeFile h
    rw [Workspace.writeFile_of_ok hw]

theorem failureLines_of_draft {f : Failure} (h : p.draft dir b = .error f) (w : Workspace) :
    FailureLines p dir b w f ((f.draftLog ++ [LogLine.notDrafted p.path.source]).map LogLine.shown) := by
  rcases draft_cases p dir b with ⟨u, hu, e⟩ | ⟨key, text, hkey, htext, ⟨hname, e⟩ | ⟨-, e⟩⟩
  · obtain rfl := Except.error.inj (h.symm.trans e)
    exact .unbound hu
  · obtain rfl := Except.error.inj (h.symm.trans e)
    exact .nameless hkey htext hname
  · cases h.symm.trans e

theorem failureLines_of_write {d : Draft} {f : Failure} (hd : p.draft dir b = .ok d)
    (h : (d.write w).failure = some f) : FailureLines p dir b w f ((d.write w).log.map LogLine.shown) := by
  obtain ⟨q, hq⟩ := parent?_of_draft hd
  rw [Draft.write] at h ⊢
  rcases Workspace.install_cases w d.path d.text.toUTF8 with ⟨hnone, -⟩ | ⟨_, w', f', hq', he, e⟩ | ⟨_, w', hq', he, e⟩
  · cases hq.symm.trans hnone
  · rw [e] at h ⊢
    obtain rfl := Option.some.inj h
    exact .directory hd hq' (congrArg Prod.snd he)
  · rw [e] at h ⊢
    cases hw : w'.write d.path d.text.toUTF8 with
    | ok w'' =>
      rw [Workspace.writeFile_of_ok hw] at h
      cases h
    | error fault =>
      rw [Workspace.writeFile, hw] at h ⊢
      obtain rfl := Option.some.inj h
      exact .file hd hq' he hw

/-! ## All patterns -/

/-- What a production logs, pattern by pattern: first the lines of the drafts that are written, and then, if there is a
failure, the lines that it leaves in the workspace that these drafts make. -/
theorem exists_log (dir : Path) (b : Bindings) (w : Workspace) (ps : List FilePattern) :
    ∃ ds parents rest,
      Drafted dir b (ps.take ds.length) ds ∧ w.WritesAll ds ∧ (produce dir b ps w).written = ds.map (·.path) ∧
      ds.map (·.path.parent?) = parents.map some ∧
      (produce dir b ps w).log.map LogLine.shown = writtenLines parents (ds.map (·.path)) ++ rest ∧
      (ds.length = ps.length ∧ (produce dir b ps w).failure = none ∧ rest = [] ∨
        ∃ p f, ps[ds.length]? = some p ∧ (produce dir b ps w).failure = some f ∧
          FailureLines p dir b (w.writeAll ds) f rest) := by
  induction ps generalizing w with
  | nil => exact ⟨[], [], [], rfl, trivial, rfl, rfl, rfl, .inl ⟨rfl, rfl, rfl⟩⟩
  | cons p ps ih =>
    cases hd : p.draft dir b with
    | error f =>
      rw [produce_of_draft_error ps hd]
      exact ⟨[], [], _, rfl, trivial, rfl, rfl, rfl, .inr ⟨p, f, rfl, rfl, failureLines_of_draft hd w⟩⟩
    | ok d =>
      cases hf : (d.write w).failure with
      | some f =>
        rw [produce_of_write_error ps hd hf]
        exact ⟨[], [], _, rfl, trivial, rfl, rfl, rfl, .inr ⟨p, f, rfl, rfl, failureLines_of_write hd hf⟩⟩
      | none =>
        obtain ⟨ds, parents, rest, hds, hws, hwritten, hparents, hlog, hend⟩ := ih (d.write w).workspace
        obtain ⟨q, hq, hline⟩ := log_of_write hf
        rw [produce_of_write_ok ps hd hf]
        refine ⟨d :: ds, q :: parents, rest, drafted_cons_iff.mpr ⟨hd, hds⟩, ⟨hf, hws⟩, ?_, ?_, ?_, ?_⟩
        · exact congrArg (d.path :: ·) hwritten
        · rw [List.map_cons, List.map_cons, hq, hparents]
        · rw [List.map_append, hline, hlog]
          rfl
        · rcases hend with ⟨hlen, hnone, hrest⟩ | hfail
          · exact .inl ⟨congrArg (· + 1) hlen, hnone, hrest⟩
          · exact .inr hfail

/-! ## Levels -/

theorem filter_writtenLines {parents paths : List Path} (h : parents.length = paths.length) :
    (writtenLines parents paths).filter (·.1 = .info) = paths.map fun q => (.info, q.quoted) := by
  induction paths generalizing parents with
  | nil => rw [writtenLines, List.zip_nil_right]; rfl
  | cons q paths ih =>
    cases parents with
    | nil => cases h
    | cons parent parents => exact congrArg ((.info, q.quoted) :: ·) (ih (Nat.succ.inj h))

theorem level_of_mem_writtenLines {parents paths : List Path} {line : LogLevel × String}
    (h : line ∈ writtenLines parents paths) : line.1 ≠ .error := by
  obtain ⟨x, -, hx⟩ := List.mem_flatMap.mp h
  rcases List.mem_cons.mp hx with rfl | hx
  · exact nofun
  · rw [List.mem_singleton.mp hx]
    exact nofun

/-- A failure leaves no line for a file, and at least one error. -/
theorem FailureLines.levels {f : Failure} {lines : List (LogLevel × String)} (h : FailureLines p dir b w f lines) :
    lines.filter (·.1 = .info) = [] ∧ ∃ line ∈ lines, line.1 = .error := by
  cases h <;> simp

/-- **The log of a production.** Let `n` files be written. The log begins with two lines for each of them, in the order
of the kit: that the parent of its path is ensured, then the path. If there was no failure, these are the drafts of all
patterns, and nothing follows. Otherwise the lines of the failure follow, as the pattern behind these `n` leaves them in
the workspace that the `n` drafts make. So the lines for information are the paths written, and there is an error in the
log exactly if there was a failure. -/
theorem produce_log (k : Kit) (dir : Path) (b : Bindings) (w : Workspace) :
    let r := k.produce dir b w
    let n := r.written.length
    let lines := r.log.map LogLine.shown
    (∃ ds parents rest,
      (k.patterns.take n).map (·.draft dir b) = ds.map .ok ∧ w.WritesAll ds ∧ r.written = ds.map (·.path) ∧
      r.written.map (·.parent?) = parents.map some ∧ lines = writtenLines parents r.written ++ rest ∧
      (r.failure = none → n = k.patterns.length ∧ rest = []) ∧
      ∀ f, r.failure = some f → ∃ p, k.patterns[n]? = some p ∧ FailureLines p dir b (w.writeAll ds) f rest) ∧
    lines.filter (·.1 = .info) = (r.written.map fun q => (.info, q.quoted)) ∧
    ((∃ line ∈ lines, line.1 = .error) ↔ r.failure ≠ none) := by
  intro r n lines
  obtain ⟨ds, parents, rest, hds, hws, hwritten, hparents, hlines, hend⟩ := exists_log dir b w k.patterns
  have hlog : lines = writtenLines parents (ds.map (·.path)) ++ rest := hlines
  have hpaths : r.written = ds.map (·.path) := hwritten
  have hn : n = ds.length := by rw [← List.length_map (·.path), ← hpaths]
  have hlen : parents.length = (ds.map (·.path)).length := by
    have h := congrArg List.length hparents
    rw [List.length_map, List.length_map] at h
    rw [List.length_map, h]
  rw [hlog, hn, hpaths]
  refine ⟨⟨ds, parents, rest, hds, hws, rfl, ?_, rfl, ?_, ?_⟩, ?_, ?_⟩
  · rw [List.map_map]
    exact hparents
  · intro hnone
    rcases hend with ⟨hall, -, hrest⟩ | ⟨p, f, -, hf, -⟩
    · exact ⟨hall, hrest⟩
    · cases hnone.symm.trans hf
  · intro f hf
    rcases hend with ⟨-, hnone, -⟩ | ⟨p, f', hp, hf', hrest⟩
    · cases hf.symm.trans hnone
    · obtain rfl := Option.some.inj (hf.symm.trans hf')
      exact ⟨p, hp, hrest⟩
  · rw [List.filter_append, filter_writtenLines hlen]
    rcases hend with ⟨-, -, rfl⟩ | ⟨p, f, -, -, hrest⟩
    · exact List.append_nil _
    · rw [hrest.levels.1, List.append_nil]
  · rcases hend with ⟨-, hnone, rfl⟩ | ⟨p, f, -, hf, hrest⟩
    · rw [List.append_nil]
      refine ⟨?_, fun h => absurd hnone h⟩
      rintro ⟨line, hmem, herror⟩
      exact absurd herror (level_of_mem_writtenLines hmem)
    · obtain ⟨line, hmem, herror⟩ := hrest.levels.2
      refine ⟨fun _ hnone => ?_, fun _ => ⟨line, List.mem_append_right _ hmem, herror⟩⟩
      cases hf.symm.trans hnone

/-- A file stands where the second one needs a directory. -/
example :
    let k := Kit.mk [⟨.ofSegments [.literal "a"], .ofSegments []⟩, ⟨.ofSegments [.literal "a/b"], .ofSegments []⟩]
    (k.produce ⟨"out"⟩ .empty (.fresh "work")).log.map LogLine.shown =
      [(.debug, "Ensured directory \"out\""), (.info, "\"out/a\""),
        (.error, "Failed to create directory: \"out/a\"")] := by
  decide +kernel

end Stencil
